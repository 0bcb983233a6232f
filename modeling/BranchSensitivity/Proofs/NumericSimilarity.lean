import BranchSensitivity.Similarity.Values
import BranchSensitivity.Proofs.DoubleValues

/-!
# Similarity of numbers

Two numbers are similar when their integer views or their float views differ by at most the
tolerance. For characters and machine integers both views are the integer, the float view as
the double nearest to it; for doubles the float view is the double itself.

Below `2 ^ 53` the double of an integer is exact, and so is the double difference of two such
integers when the difference fits too. Then both tests compare the exact distance with the
tolerance, and similarity is exactly the distance law (`similar_iff_distance_within_tolerance`):

    s.similar h t = true ↔ s.tolerance.AtLeast |a - b|

For two finite doubles the float test rounds the exact distance, and rounding never passes the
tolerance, itself a double; so a distance within the tolerance makes them similar.

Above `2 ^ 53` the law fails: two longs a hundred apart near `2 ^ 62` have one double, and are
similar under a tolerance of ten (`similar_far_longs`).
-/

open Float.Model.UnpackedFloat

namespace BranchSensitivity

namespace Value

/-- Characters and machine integers: the numeric kinds whose float view is the double of their
integer view. -/
def isIntegerKind : Value → Bool
  | .char _ | .byte _ | .short _ | .int _ | .long _ => true
  | _ => false

variable {v : Value}

theorem asFloat_of_isIntegerKind (hv : v.isIntegerKind = true) {a : Int}
    (ha : v.asInteger = some a) : v.asFloat = some (floatOfInt a) := by
  cases v <;> simp_all [isIntegerKind, asInteger, asFloat]

theorem isNumeric_of_isIntegerKind (hv : v.isIntegerKind = true) : v.isNumeric = true := by
  cases v <;> simp_all [isIntegerKind, isNumeric]

theorem isNull_of_isIntegerKind (hv : v.isIntegerKind = true) : v.isNull = false := by
  cases v <;> simp_all [isIntegerKind, isNull]

theorem isNumeric_of_asFloat {x : Float} (hx : v.asFloat = some x) : v.isNumeric = true := by
  cases v <;> simp_all [asFloat, isNumeric]

theorem isNull_of_asFloat {x : Float} (hx : v.asFloat = some x) : v.isNull = false := by
  cases v <;> simp_all [asFloat, isNull]

/-- A value of an integer kind equals only a value of its kind with the same contents. -/
theorem asInteger_eq_of_beq {t : Value} (hv : v.isIntegerKind = true) (h : (v == t) = true) :
    v.asInteger = t.asInteger := by
  change v.beq t = true at h
  cases v <;> cases t <;> simp_all [isIntegerKind, beq, asInteger]

end Value

namespace Similarity.Settings

open Value

variable (s : Settings)

/-- On two numbers of integer kinds with views of at most 53 bits, the integer test compares the
exact distance with the tolerance. -/
theorem intClose_iff {h t : Value} {a b : Int} (ha : h.asInteger = some a)
    (hb : t.asInteger = some b) (hab : (a - b).natAbs ≤ 2 ^ 53) :
    s.intClose h t = true ↔ s.tolerance.AtLeast |((a - b : Int) : ℚ)| := by
  obtain ⟨hf, hv⟩ := floatOfInt_exact (n := ((a - b).natAbs : Int)) (by omega)
  have hcast : ((((a - b).natAbs : Nat) : Int) : ℚ) = |((a - b : Int) : ℚ)| := by
    rw [Int.natCast_natAbs, Int.cast_abs]
  simp only [intClose, ha, hb, decide_eq_true_eq]
  rw [Float.le_iff_atLeast hf, hv, hcast]

/-- On two numbers of integer kinds with views of at most 53 bits, and a distance of at most 53
bits, the float test compares the exact distance with the tolerance too. -/
theorem floatClose_iff {h t : Value} {a b : Int} (hh : h.isIntegerKind = true)
    (ht : t.isIntegerKind = true) (ha : h.asInteger = some a) (hb : t.asInteger = some b)
    (ha₁ : a.natAbs ≤ 2 ^ 53) (hb₁ : b.natAbs ≤ 2 ^ 53) (hab : (a - b).natAbs ≤ 2 ^ 53) :
    s.floatClose h t = true ↔ s.tolerance.AtLeast |((a - b : Int) : ℚ)| := by
  obtain ⟨hfa, hva⟩ := floatOfInt_exact ha₁
  obtain ⟨hfb, hvb⟩ := floatOfInt_exact hb₁
  -- the difference of the two doubles is the exact difference
  obtain ⟨hfd, hvd⟩ := Float.sub_exact hfa hfb
    (by rw [hva, hvb]; exact_mod_cast representable_of_int hab)
  simp only [floatClose, asFloat_of_isIntegerKind hh ha, asFloat_of_isIntegerKind ht hb,
    decide_eq_true_eq]
  rw [Float.le_iff_atLeast (by rw [Float.isFinite_abs]; exact hfd), Float.toRat_abs, hvd, hva, hvb,
    Int.cast_sub]

/-- Two numbers of integer kinds whose integer views and distance have at most 53 bits are
similar exactly when the tolerance, if not negative, is at least their exact distance. -/
theorem similar_integers_iff (hτ : 0 ≤ s.tolerance) {h t : Value} {a b : Int}
    (hh : h.isIntegerKind = true) (ht : t.isIntegerKind = true) (ha : h.asInteger = some a)
    (hb : t.asInteger = some b) (ha₁ : a.natAbs ≤ 2 ^ 53) (hb₁ : b.natAbs ≤ 2 ^ 53)
    (hab : (a - b).natAbs ≤ 2 ^ 53) :
    s.similar h t = true ↔ s.tolerance.AtLeast |((a - b : Int) : ℚ)| := by
  unfold similar
  rw [isNull_of_isIntegerKind hh, isNull_of_isIntegerKind ht, Bool.or_false, if_neg nofun]
  by_cases hbeq : (h == t) = true
  · -- equal values have one integer view, at distance zero
    have hab0 : a = b := by
      have := asInteger_eq_of_beq hh hbeq
      rw [ha, hb] at this
      exact Option.some.inj this
    subst hab0
    rw [if_pos hbeq, sub_self, Int.cast_zero, abs_zero]
    have h0 : (0 : Float).isFinite = true ∧ (0 : Float).toRat = 0 := ⟨rfl, rfl⟩
    simpa [h0.2] using (Float.le_iff_atLeast h0.1 s.tolerance).mp hτ
  · have hnum : (h.isNumeric && t.isNumeric) = true := by
      rw [isNumeric_of_isIntegerKind hh, isNumeric_of_isIntegerKind ht, Bool.and_self]
    rw [if_neg hbeq, if_pos hnum, Bool.or_eq_true, s.intClose_iff ha hb hab,
      s.floatClose_iff hh ht ha hb ha₁ hb₁ hab, or_self]

/-- Two numbers with finite float views are similar when the tolerance is at least the exact
distance of those views. -/
theorem similar_of_floats_within {h t : Value} {x y : Float} (hhx : h.asFloat = some x)
    (hty : t.asFloat = some y) (hx : x.isFinite = true) (hy : y.isFinite = true)
    (hd : s.tolerance.AtLeast |x.toRat - y.toRat|) : s.similar h t = true := by
  unfold similar
  rw [isNull_of_asFloat hhx, isNull_of_asFloat hty, Bool.or_false, if_neg nofun]
  split
  · rfl
  · -- the float test passes: the rounded distance stays within the tolerance
    have hclose : s.floatClose h t = true := by
      simp only [floatClose, hhx, hty, decide_eq_true_eq]
      exact Float.abs_sub_le hx hy hd
    rw [isNumeric_of_asFloat hhx, isNumeric_of_asFloat hty, hclose, Bool.and_self, if_pos rfl,
      Bool.or_true]

/-- Two numbers of integer kinds whose integer views and distance have at most 53 bits are
similar exactly when the tolerance is at least their exact distance; and two numbers with finite
float views, doubles or the doubles of singles, are similar whenever the tolerance is at least
the exact distance of those views. -/
theorem similar_iff_distance_within_tolerance (hτ : 0 ≤ s.tolerance) :
    (∀ (h t : Value) (a b : Int), h.isIntegerKind = true → t.isIntegerKind = true →
      h.asInteger = some a → t.asInteger = some b →
      a.natAbs ≤ 2 ^ 53 → b.natAbs ≤ 2 ^ 53 → (a - b).natAbs ≤ 2 ^ 53 →
      (s.similar h t = true ↔ s.tolerance.AtLeast |((a - b : Int) : ℚ)|)) ∧
    (∀ (h t : Value) (x y : Float), h.asFloat = some x → t.asFloat = some y →
      x.isFinite = true → y.isFinite = true →
      s.tolerance.AtLeast |x.toRat - y.toRat| → s.similar h t = true) := by
  constructor
  · intro h t a b hh ht ha hb ha₁ hb₁ hab
    exact s.similar_integers_iff hτ hh ht ha hb ha₁ hb₁ hab
  · intro h t x y hhx hty hx hy hd
    exact s.similar_of_floats_within hhx hty hx hy hd

/-- Two longs five and twelve are similar under a tolerance of ten, whose exact value is at
least their distance seven. -/
theorem similar_close_longs :
    (0 : Float) ≤ (Settings.mk 0.8 10.0).tolerance ∧
      ((Settings.mk 0.8 10.0).similar (.long 5) (.long 12) = true ↔
        (Settings.mk 0.8 10.0).tolerance.AtLeast |((5 - 12 : Int) : ℚ)|) :=
  ⟨by decide +kernel, ((Settings.mk 0.8 10.0).similar_iff_distance_within_tolerance
    (by decide +kernel)).1 (.long 5) (.long 12) 5 12 rfl rfl rfl rfl (by decide) (by decide)
    (by decide)⟩

end Similarity.Settings

namespace Similarity

/-- Two longs a hundred apart near `2 ^ 62` round to the same double, so they are similar under
a tolerance of ten. -/
theorem similar_far_longs :
    (Settings.mk 0.8 10.0).similar (.long 4611686018427387904) (.long 4611686018427388004) = true ∧
      10 < ((4611686018427388004 : Int) - 4611686018427387904).natAbs := by
  constructor
  · decide +kernel
  · decide

end Similarity

end BranchSensitivity
