import BranchSensitivity.Proofs.NumericSimilarity

/-!
# Which values are similar to themselves

A value that equals itself is similar to itself under any settings. Only a NaN, single or
double, differs from itself; it then goes to the numeric tests, whose integer views agree (a NaN
truncates to zero) and whose float views are NaN. Both tests compare with the tolerance, so a NaN
is similar to itself exactly when the tolerance is at least zero, that is, under a validated
configuration, exactly when the tolerance is not NaN:

    c.validate = .ok () → v.isNull = false →
      ((Settings.ofConfig c).similar v v = true ↔ (v == v) = true ∨ c.numericTolerance.isNaN = false)

Validation refuses a negative tolerance by `tolerance < 0.0`, which a NaN tolerance passes, while
the threshold's range check refuses a NaN threshold; with a NaN tolerance a NaN double is not
similar to itself (`nan_tolerance_breaks_reflexivity`).
-/

open Float.Model Float.Model.UnpackedFloat

namespace Float

theorem isNaN_eq (x : Float) : x.isNaN = x.toModel.unpack.isNaN := rfl

theorem lt_iff_unpack (x y : Float) : x < y ↔ x.toModel.unpack.lt y.toModel.unpack = true := by
  show decide (x.toModel.lt y.toModel = true) = true ↔ _
  rw [decide_eq_true_eq]
  rfl

theorem unpack_zero : (0.0 : Float).toModel.unpack = .zero .positive := rfl

/-- Nothing is at most NaN. -/
theorem isNaN_eq_false_of_le {x y : Float} (h : x ≤ y) : y.isNaN = false := by
  rw [le_iff_unpack] at h
  rw [isNaN_eq]
  cases hy : y.toModel.unpack with
  | notANumber => rw [hy, le_notANumber] at h; cases h
  | _ => rfl

/-- A double that is neither NaN nor below zero is at least zero: `+∞`, a zero, or a positive
finite double. -/
theorem atLeast_zero_of_not_lt {τ : Float} (hnan : τ.isNaN = false) (hlt : ¬ τ < 0.0) :
    τ.AtLeast 0 := by
  rw [lt_iff_unpack, unpack_zero] at hlt
  rw [isNaN_eq] at hnan
  unfold AtLeast
  rw [isFinite_eq, toRat]
  cases hτ : τ.toModel.unpack with
  | notANumber => rw [hτ] at hnan; cases hnan
  | infinity s =>
    cases s with
    | positive => exact .inl rfl
    | negative => rw [hτ] at hlt; exact absurd rfl hlt
  | zero s => exact .inr ⟨rfl, le_refl _⟩
  | finite s m e hm =>
    cases s with
    | positive => exact .inr ⟨rfl, (toRat_finite_positive m e hm).symm ▸ (value_pos hm e).le⟩
    | negative => rw [hτ] at hlt; exact absurd rfl hlt

end Float

namespace BranchSensitivity

namespace Value

variable {v : Value}

/-- Only a NaN differs from itself, and it is a number. -/
theorem isNumeric_of_beq_self {v : Value} (h : (v == v) = false) : v.isNumeric = true := by
  change v.beq v = false at h
  cases v <;> simp_all [beq, isNumeric]

theorem asInteger_isSome {v : Value} (h : v.isNumeric = true) : ∃ a, v.asInteger = some a := by
  cases v <;> simp_all [isNumeric, asInteger]

theorem asFloat_isSome {v : Value} (h : v.isNumeric = true) : ∃ x, v.asFloat = some x := by
  cases v <;> simp_all [isNumeric, asFloat]

end Value

/-- The double of zero is the number zero. -/
theorem floatOfInt_zero : (Value.floatOfInt 0).isFinite = true ∧ (Value.floatOfInt 0).toRat = 0 := by
  simpa using Value.floatOfInt_exact (n := 0) (by decide)

namespace Similarity.Settings

variable (s : Settings)

/-- A number's integer view is at distance zero from itself. -/
theorem intClose_self {v : Value} {a : Int} (ha : v.asInteger = some a) :
    s.intClose v v = decide (Value.floatOfInt 0 ≤ s.tolerance) := by
  simp [intClose, ha]

/-- Under a tolerance that is not below zero, both numeric tests pass only when it is no NaN;
the integer test then passes. -/
theorem numericClose_self {v : Value} (hv : v.isNumeric = true) (hτ : ¬ s.tolerance < 0.0) :
    (s.intClose v v || s.floatClose v v) = true ↔ s.tolerance.isNaN = false := by
  obtain ⟨a, ha⟩ := Value.asInteger_isSome hv
  obtain ⟨x, hx⟩ := Value.asFloat_isSome hv
  rw [intClose_self s ha]
  simp only [floatClose, hx, Bool.or_eq_true, decide_eq_true_eq]
  constructor
  · rintro (h | h)
    · exact Float.isNaN_eq_false_of_le h
    · exact Float.isNaN_eq_false_of_le h
  · intro hnan
    left
    exact (Float.le_iff_atLeast floatOfInt_zero.1 _).2
      (floatOfInt_zero.2 ▸ Float.atLeast_zero_of_not_lt hnan hτ)

end Similarity.Settings

namespace Config

/-- A validated configuration's tolerance is not below zero: a tolerance below zero fails the
third check, if no earlier one failed. -/
theorem not_tolerance_lt_of_validate {c : Config} (h : c.validate = .ok ()) :
    ¬ c.numericTolerance < 0.0 := by
  intro hlt
  simp only [validate, hlt, if_true] at h
  split_ifs at h

end Config

open Similarity

/-- **Self-similarity under a validated configuration.** A non-null value is similar to itself
exactly when it equals itself or the tolerance is not NaN; every value but a NaN single or double
equals itself. -/
theorem similar_self_iff {c : Config} (hc : c.validate = .ok ()) {v : Value}
    (hv : v.isNull = false) :
    (Settings.ofConfig c).similar v v = true ↔ (v == v) = true ∨ c.numericTolerance.isNaN = false := by
  unfold Settings.similar
  rw [hv, Bool.or_false, if_neg (by decide)]
  cases hself : v == v with
  | true => simp
  | false =>
    -- a NaN: the numeric tests decide
    have hnum := Value.isNumeric_of_beq_self hself
    rw [if_neg (by decide), hnum, Bool.and_self, if_pos rfl,
      (Settings.ofConfig c).numericClose_self hnum (Config.not_tolerance_lt_of_validate hc)]
    simp only [Bool.false_eq_true, false_or]
    exact Iff.rfl

/-- The default configuration validates, and under its tolerance of ten a NaN double is similar
to itself. -/
theorem nan_similar_to_itself_by_default :
    ({} : Config).validate = .ok () ∧ (Value.double (0.0 / 0.0)).isNull = false ∧
      (Settings.ofConfig {}).similar (.double (0.0 / 0.0)) (.double (0.0 / 0.0)) = true := by
  have hc : ({} : Config).validate = .ok () := by decide +kernel
  have hv : (Value.double (0.0 / 0.0)).isNull = false := rfl
  exact ⟨hc, hv, (similar_self_iff hc hv).2 (.inr (by decide +kernel))⟩

/-- A NaN tolerance passes validation, and under it a NaN double is not similar to itself. -/
theorem nan_tolerance_breaks_reflexivity :
    ({ numericTolerance := 0.0 / 0.0 } : Config).validate = .ok () ∧
      (Settings.ofConfig { numericTolerance := 0.0 / 0.0 }).similar (.double (0.0 / 0.0))
        (.double (0.0 / 0.0)) = false := by
  decide +kernel

end BranchSensitivity
