import Mathlib
import BranchSensitivity.Proofs.IntegerDoubles

/-!
# Exact values of doubles

A finite double is a signed mantissa times a power of two, and so a rational:

    toRat (.finite s m e _) = ±m * 2 ^ e

Unpacking bits gives a *canonical* form: a mantissa of 53 bits, or fewer at the least exponent
`-1074`, with an exponent that fits the format (`Canonical`). On canonical forms the model's
comparison, exponents first and mantissas second, orders floats as their values
(`compare_eq_compare_toRat`).

Rounding first shifts `N * 2 ^ e` to 53 bits below its leading one, or to the least exponent,
and then rounds the bits it dropped to the nearest, ties to even. Whatever the dropped bits, the
result never passes a double on either side of the exact value (`round_le_of_le`,
`le_round_of_le`), so a value that is itself a double rounds to itself (`round_of_value`).
Subtraction rounds the exact difference once, so a difference that is a double is computed
exactly (`Float.sub_exact`), and the rounded magnitude of any difference is within every bound
that the exact magnitude is within (`Float.abs_sub_le`). An integer of at most 53 bits is a
double, and its double is exact (`Value.floatOfInt_exact`).
-/

namespace Float.Model.UnpackedFloat

/-! ## Values and canonical forms -/

/-- The exact value of a finite float, and zero for a zero; the infinities and NaN read as zero
too. -/
def toRat : UnpackedFloat → ℚ
  | .finite s m e _ => (s.apply m : ℚ) * 2 ^ e
  | _ => 0

@[simp] theorem toRat_zero (s : Sign) : (zero s).toRat = 0 := rfl

@[simp] theorem toRat_finite (s : Sign) (m : Nat) (e : Int) (h : 0 < m) :
    (finite s m e h).toRat = (s.apply m : ℚ) * 2 ^ e := rfl

/-- A mantissa and exponent as rounding to a double leaves them: 53 significant bits, or fewer
at the least exponent. -/
def Normalized (m : Nat) (e : Int) : Prop :=
  m < 2 ^ 53 ∧ -1074 ≤ e ∧ (2 ^ 52 ≤ m ∨ e = -1074)

/-- The forms that unpacking a double gives: a normalized finite float whose exponent fits the
eleven exponent bits, a zero, an infinity or NaN. -/
def Canonical : UnpackedFloat → Prop
  | .finite _ m e _ => Normalized m e ∧ e ≤ 971
  | _ => True

theorem canonical_unpack (b : BitVec Format.binary64.numBits) :
    Canonical (unpack Format.binary64 b) := by
  have hm : (@unpackMantissa Format.binary64 b).toNat < 2 ^ 52 := BitVec.isLt _
  have he : (@unpackExponent Format.binary64 b).toNat < 2 ^ 11 := BitVec.isLt _
  unfold unpack
  dsimp only
  split
  · split <;> trivial
  · rename_i hinf
    split
    · rename_i hzero
      split
      · trivial
      · -- a subnormal: the stored mantissa at the least exponent
        have h0 : (@unpackExponent Format.binary64 b).toNat = 0 := by rw [hzero]; rfl
        simp only [Canonical, Normalized, Format.exponentBias, h0]
        omega
    · rename_i hzero
      have h0 : (@unpackExponent Format.binary64 b).toNat ≠ 0 := fun h =>
        hzero (BitVec.eq_of_toNat_eq h)
      have h1 : (@unpackExponent Format.binary64 b).toNat ≠ 2047 := fun h =>
        hinf (BitVec.eq_of_toNat_eq h)
      simp only [Canonical, Normalized, Format.exponentBias, append_implicit_toNat]
      omega

theorem unpack_pack_zero (z : Sign) :
    unpack Format.binary64 (pack Format.binary64 (.zero z)) = .zero z := by
  cases z <;> rfl

theorem unpack_pack_subnormal (s : Sign) {m : Nat} (h : 0 < m) (hm : m < 2 ^ 52) :
    unpack Format.binary64 (pack Format.binary64 (.finite s m (-1074) h)) =
      .finite s m (-1074) h := by
  have hlog : m.log2 < 52 := (Nat.log2_lt (by omega)).mpr hm
  have hmant : (BitVec.ofNat 52 m).toNat = m := by
    rw [BitVec.toNat_ofNat, Nat.mod_eq_of_lt hm]
  have hne : BitVec.ofNat 52 m ≠ 0#52 := by
    intro h0
    have := congrArg BitVec.toNat h0
    rw [hmant] at this
    simp at this
    omega
  have hb : (-1074 + (Format.binary64.exponentBias : Int) +
      (Format.binary64.mantissaBitsWithoutImplicit : Int)).toNat = 1 := by decide
  rw [pack]
  simp only [hb, show Format.binary64.mantissaBits = 53 from rfl]
  rw [if_neg (by decide), if_neg (by omega)]
  simp only [unpack, unpackMantissa_packComponents, unpackExponent_packComponents,
    unpackSign_packComponents, Sign.ofBitVec_toBitVec, hne]
  rw [if_neg (by decide), if_pos trivial, dif_neg not_false]
  congr 1

theorem unpack_pack_overflow (s : Sign) {m : Nat} {e : Int} (h : 0 < m) (he : 971 < e) :
    unpack Format.binary64 (pack Format.binary64 (.finite s m e h)) = .infinity s := by
  rw [pack]
  dsimp only
  rw [if_pos (by simp only [Format.exponentBias]; omega)]
  cases s <;> rfl

/-- Packing keeps a normalized float whose exponent fits, and overflows the others. -/
theorem unpack_pack_finite (s : Sign) {m : Nat} {e : Int} (h : 0 < m) (hn : Normalized m e) :
    unpack Format.binary64 (pack Format.binary64 (.finite s m e h)) =
      if e ≤ 971 then .finite s m e h else .infinity s := by
  obtain ⟨hm, he, hlo | rfl⟩ := hn
  · split
    · exact unpack_pack_normal s h hlo hm he ‹_›
    · exact unpack_pack_overflow s h (by omega)
  · by_cases hlo : 2 ^ 52 ≤ m
    · exact unpack_pack_normal s h hlo hm (by omega) (by omega)
    · rw [if_pos (by omega)]
      exact unpack_pack_subnormal s h (by omega)

/-! ## Signs and magnitudes -/

theorem two_zpow_pos (e : Int) : (0 : ℚ) < 2 ^ e := zpow_pos two_pos e

theorem value_pos {m : Nat} (h : 0 < m) (e : Int) : (0 : ℚ) < m * 2 ^ e :=
  mul_pos (by exact_mod_cast h) (two_zpow_pos e)

/-- A mantissa shifted up `k` places is worth the mantissa `k` places higher. -/
theorem shifted_value (m k : Nat) (t : Int) :
    ((m * 2 ^ k : Nat) : ℚ) * 2 ^ t = m * 2 ^ (t + k) := by
  push_cast
  rw [mul_assoc, ← zpow_natCast, ← zpow_add₀ two_ne_zero, add_comm (k : Int) t]

theorem sign_apply_cast (s : Sign) (n : Nat) : ((s.apply n : Int) : ℚ) = s.apply 1 * n := by
  cases s <;> simp [Sign.apply]

theorem sign_apply_neg (s : Sign) (n : Int) : (-s).apply n = -s.apply n := by
  cases s
  · exact (Int.neg_neg n).symm
  · rfl

theorem abs_sign_apply_one (s : Sign) : |((s.apply 1 : Int) : ℚ)| = 1 := by
  cases s <;> simp [Sign.apply]

theorem abs_signed_value (s : Sign) {N : Nat} (hN : 0 < N) (c : Int) :
    |(s.apply 1 : ℚ) * (N * 2 ^ c)| = N * 2 ^ c := by
  rw [abs_mul, abs_sign_apply_one, one_mul, abs_of_pos (value_pos hN c)]

theorem abs_toRat_finite (s : Sign) (m : Nat) (e : Int) (h : 0 < m) :
    |(finite s m e h).toRat| = m * 2 ^ e := by
  cases s <;> simp [Sign.apply, abs_of_pos (value_pos h e)]

theorem toRat_finite_positive (m : Nat) (e : Int) (h : 0 < m) :
    (finite .positive m e h).toRat = m * 2 ^ e := by
  simp [Sign.apply]

theorem toRat_finite_ne_zero (s : Sign) {m : Nat} (e : Int) (h : 0 < m) :
    (finite s m e h).toRat ≠ 0 := by
  rw [← abs_ne_zero, abs_toRat_finite]
  exact (value_pos h e).ne'

theorem isFinite_neg (u : UnpackedFloat) : u.neg.isFinite = u.isFinite := by
  cases u <;> rfl

theorem toRat_neg (u : UnpackedFloat) : u.neg.toRat = -u.toRat := by
  cases u with
  | finite s m e h => simp only [neg, toRat_finite, sign_apply_neg, Int.cast_neg, neg_mul]
  | _ => simp [neg, toRat]

theorem isFinite_abs (u : UnpackedFloat) : u.abs.isFinite = u.isFinite := by
  cases u <;> rfl

theorem toRat_abs (u : UnpackedFloat) : u.abs.toRat = |u.toRat| := by
  cases u with
  | finite s m e h => rw [abs, toRat_finite_positive, abs_toRat_finite]
  | _ => simp [abs, toRat]

theorem abs_ne_notANumber {u : UnpackedFloat} (h : u ≠ .notANumber) : u.abs ≠ .notANumber := by
  cases u <;> first | exact absurd rfl h | exact nofun

/-! ## Comparison -/

/-- Of two normalized values, the one with the smaller exponent is the smaller: the larger
exponent has its leading bit, and a whole binade lies between. -/
theorem value_lt_of_exponent_lt {m₁ m₂ : Nat} {e₁ e₂ : Int} (h₁ : Normalized m₁ e₁)
    (h₂ : Normalized m₂ e₂) (he : e₁ < e₂) : (m₁ : ℚ) * 2 ^ e₁ < m₂ * 2 ^ e₂ := by
  have hm₂ : 2 ^ 52 ≤ m₂ := h₂.2.2.resolve_right (by have := h₁.2.1; omega)
  have hm₁ : (m₁ : ℚ) < 2 ^ 53 := by exact_mod_cast h₁.1
  calc (m₁ : ℚ) * 2 ^ e₁ < 2 ^ 53 * 2 ^ e₁ := mul_lt_mul_of_pos_right hm₁ (two_zpow_pos e₁)
    _ = 2 ^ 52 * 2 ^ (e₁ + 1) := by rw [zpow_add_one₀ two_ne_zero]; ring
    _ ≤ 2 ^ 52 * 2 ^ e₂ := by gcongr; norm_num; omega
    _ ≤ m₂ * 2 ^ e₂ := by gcongr; exact_mod_cast hm₂

/-- Of two normalized values, the smaller has the smaller exponent or the same. -/
theorem exponent_le_of_value_le {M M' : Nat} {E E' : Int} (h : Normalized M E)
    (h' : Normalized M' E') (hle : (M : ℚ) * 2 ^ E ≤ M' * 2 ^ E') : E ≤ E' := by
  by_contra hlt
  exact absurd hle (not_le.mpr (value_lt_of_exponent_lt h' h (by omega)))

/-- On normalized forms, comparing exponents first and mantissas second compares values. -/
theorem compare_lex {m₁ m₂ : Nat} {e₁ e₂ : Int} (h₁ : Normalized m₁ e₁) (h₂ : Normalized m₂ e₂) :
    (compare e₁ e₂).then (compare m₁ m₂) = compare ((m₁ : ℚ) * 2 ^ e₁) (m₂ * 2 ^ e₂) := by
  rcases lt_trichotomy e₁ e₂ with he | rfl | he
  · rw [Int.compare_eq_lt.mpr he, (compare_lt_iff_lt).mpr (value_lt_of_exponent_lt h₁ h₂ he)]
    rfl
  · rw [Int.compare_eq_eq.mpr rfl, Ordering.eq_then]
    rcases lt_trichotomy m₁ m₂ with hm | rfl | hm
    · rw [Nat.compare_eq_lt.mpr hm, (compare_lt_iff_lt).mpr]
      gcongr
    · rw [Nat.compare_eq_eq.mpr rfl, Std.compare_self]
    · rw [Nat.compare_eq_gt.mpr hm, (compare_gt_iff_gt).mpr]
      gcongr
  · rw [Int.compare_eq_gt.mpr he, (compare_gt_iff_gt).mpr (value_lt_of_exponent_lt h₂ h₁ he)]
    rfl

theorem compare_neg_neg (a b : ℚ) : compare (-a) (-b) = compare b a := by
  rcases lt_trichotomy a b with h | rfl | h
  · rw [(compare_gt_iff_gt).mpr (neg_lt_neg h), (compare_gt_iff_gt).mpr h]
  · rw [Std.compare_self, Std.compare_self]
  · rw [(compare_lt_iff_lt).mpr (neg_lt_neg h), (compare_lt_iff_lt).mpr h]

/-- On canonical forms the model's comparison of finite floats compares their values. -/
theorem compare_eq_compare_toRat {u v : UnpackedFloat} (hu : Canonical u) (hv : Canonical v)
    (hfu : u.isFinite = true) (hfv : v.isFinite = true) :
    u.compare v = some (compare u.toRat v.toRat) := by
  cases u with
  | notANumber | infinity => simp [isFinite] at hfu
  | zero s₁ =>
    cases v with
    | notANumber | infinity => simp [isFinite] at hfv
    | zero s₂ => simp [UnpackedFloat.compare, toRat]
    | finite s₂ m₂ e₂ h₂ =>
      have hp := value_pos h₂ e₂
      cases s₂
      · simp [UnpackedFloat.compare, toRat, Sign.apply,
          (compare_gt_iff_gt).mpr (neg_lt_zero.mpr hp)]
      · simp [UnpackedFloat.compare, toRat, Sign.apply, (compare_lt_iff_lt).mpr hp]
  | finite s₁ m₁ e₁ h₁ =>
    have hp₁ := value_pos h₁ e₁
    cases v with
    | notANumber | infinity => simp [isFinite] at hfv
    | zero s₂ =>
      cases s₁
      · simp [UnpackedFloat.compare, toRat, Sign.apply,
          (compare_lt_iff_lt).mpr (neg_lt_zero.mpr hp₁)]
      · simp [UnpackedFloat.compare, toRat, Sign.apply, (compare_gt_iff_gt).mpr hp₁]
    | finite s₂ m₂ e₂ h₂ =>
      have hp₂ := value_pos h₂ e₂
      cases s₁ <;> cases s₂
      · -- two negatives compare as their magnitudes the other way round
        simp only [UnpackedFloat.compare, toRat, Sign.apply, Int.cast_neg, Int.cast_natCast,
          neg_mul]
        rw [compare_neg_neg, compare_lex hu.1 hv.1]
        exact congrArg some Std.OrientedOrd.eq_swap.symm
      · simp [UnpackedFloat.compare, toRat, Sign.apply,
          (compare_lt_iff_lt).mpr (show -((m₁ : ℚ) * 2 ^ e₁) < m₂ * 2 ^ e₂ by linarith)]
      · simp [UnpackedFloat.compare, toRat, Sign.apply,
          (compare_gt_iff_gt).mpr (show -((m₂ : ℚ) * 2 ^ e₂) < m₁ * 2 ^ e₁ by linarith)]
      · simp only [UnpackedFloat.compare, toRat, Sign.apply, Int.cast_natCast,
          compare_lex hu.1 hv.1]

theorem le_iff_toRat_le {u v : UnpackedFloat} (hu : Canonical u) (hv : Canonical v)
    (hfu : u.isFinite = true) (hfv : v.isFinite = true) :
    u.le v = true ↔ u.toRat ≤ v.toRat := by
  rw [UnpackedFloat.le, compare_eq_compare_toRat hu hv hfu hfv]
  simp [Ordering.isLE_iff_ne_gt, compare_gt_iff_gt]

theorem le_infinity {u : UnpackedFloat} (hu : u ≠ .notANumber) :
    u.le (.infinity .positive) = true := by
  rcases u with s | _ | s | ⟨s, m, e, h⟩
  · cases s <;> rfl
  · exact absurd rfl hu
  · rfl
  · rfl

theorem le_notANumber (u : UnpackedFloat) : u.le .notANumber = false := by
  cases u <;> rfl

theorem le_negative_infinity {u : UnpackedFloat} (hu : u.isFinite = true) :
    u.le (.infinity .negative) = false := by
  cases u <;> first | rfl | simp [isFinite] at hu

/-! ## Rounding -/

/-- The exponent of a unit in the last place of the double nearest `N * 2 ^ e`: 52 places below
the leading one, but never below the least subnormal exponent. -/
def ulpExponent (N : Nat) (e : Int) : Int := Format.binary64.targetExponent (totalExponent N e)

theorem ulpExponent_eq (N : Nat) (e : Int) :
    ulpExponent N e = max (N.log2 + e - 52) (-1074) := by
  simp only [ulpExponent, Format.targetExponent, totalExponent, Format.mantissaBits,
    Format.minExponent]
  omega

theorem ulpExponent_ge (N : Nat) (e : Int) : -1074 ≤ ulpExponent N e := by
  rw [ulpExponent_eq]
  omega

theorem roundedMantissa_exact (m : Nat) :
    (⟨m, false, false⟩ : ExtendedMantissa).roundedMantissa = m := rfl

/-- Shifting out bits that are all zero is exact. -/
theorem shiftRight_of_dvd {m k : Nat} (h : 2 ^ k ∣ m) :
    (⟨m, false, false⟩ : ExtendedMantissa) >>> k = ⟨m / 2 ^ k, false, false⟩ := by
  induction k with
  | zero => simp [HShiftRight.hShiftRight, Nat.repeat]
  | succ k ih =>
    have hk : 2 ^ k ∣ m := Nat.pow_dvd_of_le_of_pow_dvd (Nat.le_succ k) h
    change ExtendedMantissa.shiftRightOne ((⟨m, false, false⟩ : ExtendedMantissa) >>> k) = _
    rw [ih hk]
    obtain ⟨c, rfl⟩ := h
    have hc : 2 ^ (k + 1) * c / 2 ^ k = 2 * c := by
      rw [Nat.pow_succ, Nat.mul_assoc, Nat.mul_div_cancel_left _ (Nat.two_pow_pos k)]
    simp only [ExtendedMantissa.shiftRightOne, hc, Bool.or_self, Nat.mul_mod_right,
      bne_self_eq_false]
    rw [Nat.mul_div_cancel_left _ (Nat.two_pow_pos _), Nat.mul_div_cancel_left _ Nat.two_pos]

/-- Rounding never passes a multiple of the last place that lies above. -/
theorem roundedMantissa_le {m k T : Nat} (h : m ≤ T * 2 ^ k) :
    ((⟨m, false, false⟩ : ExtendedMantissa) >>> k).roundedMantissa ≤ T := by
  by_cases hd : 2 ^ k ∣ m
  · rw [shiftRight_of_dvd hd]
    exact Nat.div_le_of_le_mul (by rwa [Nat.mul_comm])
  · have hr := roundedMantissa_mem ((⟨m, false, false⟩ : ExtendedMantissa) >>> k)
    rw [mantissa_shiftRight] at hr
    dsimp only at hr
    -- bits are lost, so the quotient lies strictly below `T`
    have hlt : m / 2 ^ k < T := by
      by_contra hge
      have : T * 2 ^ k ≤ m / 2 ^ k * 2 ^ k := Nat.mul_le_mul_right _ (by omega)
      exact hd ⟨T, by have := Nat.div_mul_le_self m (2 ^ k); rw [Nat.mul_comm]; omega⟩
    omega

/-- Rounding never falls below a multiple of the last place that lies below. -/
theorem le_roundedMantissa {m k T : Nat} (h : T * 2 ^ k ≤ m) :
    T ≤ ((⟨m, false, false⟩ : ExtendedMantissa) >>> k).roundedMantissa := by
  have hr := roundedMantissa_mem ((⟨m, false, false⟩ : ExtendedMantissa) >>> k)
  rw [mantissa_shiftRight] at hr
  dsimp only at hr
  exact Nat.le_trans ((Nat.le_div_iff_mul_le (Nat.two_pow_pos k)).mpr h) hr.1

/-- After a first shift to at most 53 bits, and 53 unless at the least exponent, rounding gives
zero or a normalized float worth the rounded mantissa in units of the last place. -/
theorem roundWithAccuracy_value (s : Sign) {m : Nat} {e t : Int} {em : ExtendedMantissa}
    (hshift : shiftToTargetExponent Format.binary64 m e .exact = (em, t))
    (hhi : em.mantissa < 2 ^ 53) (ht : -1074 ≤ t) (hlo : 2 ^ 52 ≤ em.mantissa ∨ t = -1074) :
    (em.roundedMantissa = 0 ∧ roundWithAccuracy Format.binary64 s m e .exact = .zero s) ∨
      ∃ M E h, roundWithAccuracy Format.binary64 s m e .exact = .finite s M E h ∧
        Normalized M E ∧ (M : ℚ) * 2 ^ E = em.roundedMantissa * 2 ^ t := by
  have hr := roundedMantissa_mem em
  unfold roundWithAccuracy
  rw [hshift]
  dsimp only
  by_cases hsmall : em.roundedMantissa < 2 ^ 53
  · rw [shiftToTargetExponent_narrow hsmall ht]
    dsimp only
    by_cases hz : em.roundedMantissa = 0
    · exact .inl ⟨hz, dif_pos hz⟩
    · rw [dif_neg hz]
      exact .inr ⟨_, _, _, rfl, ⟨hsmall, ht, by omega⟩, rfl⟩
  · -- rounding carried to `2 ^ 53`: one place up, the same value
    have hcarry : em.roundedMantissa = 2 ^ 53 := by omega
    rw [hcarry, shiftToTargetExponent_carry ht]
    dsimp only
    rw [dif_neg (by decide)]
    refine .inr ⟨_, _, _, rfl, ⟨by decide, by omega, .inl le_rfl⟩, ?_⟩
    rw [zpow_add_one₀ two_ne_zero]
    push_cast
    ring

/-- `round` first moves `N * 2 ^ e` to the exponent of its last place less `k`, the count of
bits it will then drop: `N₁` holds the same value there, with at most 53 bits above the `k`
dropped ones, and exactly 53 unless at the least exponent. -/
theorem round_first_shift (s : Sign) {N : Nat} (e : Int) (hN : 0 < N) :
    ∃ N₁ k : Nat, (N₁ : ℚ) * 2 ^ (ulpExponent N e - k) = N * 2 ^ e ∧
      round Format.binary64 s N e =
        roundWithAccuracy Format.binary64 s N₁ (ulpExponent N e - k) .exact ∧
      shiftToTargetExponent Format.binary64 N₁ (ulpExponent N e - k) .exact =
        ((⟨N₁, false, false⟩ : ExtendedMantissa) >>> k, ulpExponent N e) ∧
      N₁ / 2 ^ k < 2 ^ 53 ∧ (2 ^ 52 ≤ N₁ / 2 ^ k ∨ ulpExponent N e = -1074) := by
  have h₁ := Nat.log2_self_le (Nat.pos_iff_ne_zero.mp hN)
  have h₂ := Nat.lt_log2_self (n := N)
  have ht := ulpExponent_eq N e
  have hround : round Format.binary64 s N e = roundWithAccuracy Format.binary64 s
      (N <<< (e - ulpExponent N e).toNat) (e - (e - ulpExponent N e).toNat) .exact := rfl
  generalize ulpExponent N e = t at ht hround ⊢
  generalize hj : (e - t).toNat = j at hround ⊢
  generalize hk : (t - e).toNat = k
  have hej : e - j = t - k := by omega
  have hlog := log2_shiftLeft hN j
  refine ⟨N <<< j, k, ?_, ?_, ?_, ?_, ?_⟩
  · rw [← hej, Nat.shiftLeft_eq, shifted_value, sub_add_cancel]
  · rw [hround, hej]
  · have htarget : Format.binary64.targetExponent (totalExponent (N <<< j) (t - k)) = t := by
      simp only [Format.targetExponent, totalExponent, Format.mantissaBits, Format.minExponent,
        hlog]
      omega
    simp only [shiftToTargetExponent, shiftToExponent, htarget,
      show (t - (t - k)).toNat = k by omega, show t - k + (k : Int) = t by omega]
    rfl
  · rw [Nat.shiftLeft_eq]
    apply (Nat.div_lt_iff_lt_mul (Nat.two_pow_pos k)).mpr
    calc N * 2 ^ j < 2 ^ (N.log2 + 1) * 2 ^ j :=
          Nat.mul_lt_mul_of_pos_right h₂ (Nat.two_pow_pos j)
      _ = 2 ^ (N.log2 + 1 + j) := (Nat.pow_add ..).symm
      _ ≤ 2 ^ (53 + k) := Nat.pow_le_pow_right (by norm_num) (by omega)
      _ = 2 ^ 53 * 2 ^ k := Nat.pow_add ..
  · by_cases hsub : t = -1074
    · exact .inr hsub
    · -- a normal exponent: the leading one sits 52 places above the dropped bits
      left
      rw [Nat.shiftLeft_eq]
      apply (Nat.le_div_iff_mul_le (Nat.two_pow_pos k)).mpr
      calc 2 ^ 52 * 2 ^ k = 2 ^ (N.log2 + j) := by rw [← Nat.pow_add]; congr 1; omega
        _ = 2 ^ N.log2 * 2 ^ j := Nat.pow_add ..
        _ ≤ N * 2 ^ j := Nat.mul_le_mul_right _ h₁

/-- The double nearest `N * 2 ^ e`, with `N₁` and `k` of the first shift: a zero when the
rounded mantissa is zero, and otherwise a normalized float worth the rounded mantissa in units of
the last place. -/
theorem round_value (s : Sign) {N : Nat} (e : Int) (hN : 0 < N) :
    ∃ N₁ k : Nat, (N₁ : ℚ) * 2 ^ (ulpExponent N e - k) = N * 2 ^ e ∧
      (2 ^ 52 ≤ N₁ / 2 ^ k ∨ ulpExponent N e = -1074) ∧
      ((((⟨N₁, false, false⟩ : ExtendedMantissa) >>> k).roundedMantissa = 0 ∧
          round Format.binary64 s N e = .zero s) ∨
        ∃ M E h, round Format.binary64 s N e = .finite s M E h ∧ Normalized M E ∧
          (M : ℚ) * 2 ^ E =
            ((⟨N₁, false, false⟩ : ExtendedMantissa) >>> k).roundedMantissa *
              2 ^ ulpExponent N e) := by
  obtain ⟨N₁, k, hval, hround, hshift, hhi, hlo⟩ := round_first_shift s e hN
  refine ⟨N₁, k, hval, hlo, ?_⟩
  rw [hround]
  exact roundWithAccuracy_value s hshift (by rw [mantissa_shiftRight]; exact hhi)
    (ulpExponent_ge N e) (by rw [mantissa_shiftRight]; exact hlo)

/-- Rounding gives a zero or a normalized float. -/
theorem round_cases (s : Sign) {N : Nat} (e : Int) (hN : 0 < N) :
    round Format.binary64 s N e = .zero s ∨
      ∃ M E h, round Format.binary64 s N e = .finite s M E h ∧ Normalized M E := by
  obtain ⟨-, -, -, -, ⟨-, hz⟩ | ⟨M, E, h, hfin, hn, -⟩⟩ := round_value s e hN
  · exact .inl hz
  · exact .inr ⟨M, E, h, hfin, hn⟩

theorem two_zpow_log2_le {N : Nat} (hN : 0 < N) (e : Int) :
    (2 : ℚ) ^ (N.log2 + e) ≤ N * 2 ^ e := by
  rw [zpow_add₀ two_ne_zero, zpow_natCast]
  gcongr
  exact_mod_cast Nat.log2_self_le (Nat.pos_iff_ne_zero.mp hN)

theorem value_lt_two_zpow {M : Nat} {E : Int} (h : Normalized M E) :
    (M : ℚ) * 2 ^ E < 2 ^ (53 + E) := by
  rw [zpow_add₀ two_ne_zero]
  gcongr
  exact_mod_cast h.1

/-- A double at least `N * 2 ^ e` has an exponent at least that of the last place of the double
nearest `N * 2 ^ e`. -/
theorem ulpExponent_le_of_le {N M : Nat} {e E : Int} (hN : 0 < N) (h : Normalized M E)
    (hle : (N : ℚ) * 2 ^ e ≤ M * 2 ^ E) : ulpExponent N e ≤ E := by
  rw [ulpExponent_eq]
  have hlt : (2 : ℚ) ^ ((N.log2 : Int) + e) < 2 ^ (53 + E) :=
    ((two_zpow_log2_le hN e).trans hle).trans_lt (value_lt_two_zpow h)
  have := (zpow_lt_zpow_iff_right₀ (by norm_num : (1 : ℚ) < 2)).mp hlt
  have := h.2.1
  omega

/-- A double whose exponent is at least `t` is a whole number of units `2 ^ t`. -/
theorem value_eq_units {M : Nat} {E t : Int} (h : t ≤ E) :
    (M : ℚ) * 2 ^ E = ((M * 2 ^ (E - t).toNat : Nat) : ℚ) * 2 ^ t := by
  rw [shifted_value]
  congr 2
  omega

theorem units_split (b k : Nat) (t : Int) :
    (b : ℚ) * 2 ^ t = ((b * 2 ^ k : Nat) : ℚ) * 2 ^ (t - k) := by
  rw [shifted_value, sub_add_cancel]

theorem units_le_units_iff (a b k : Nat) (t : Int) :
    (a : ℚ) * 2 ^ (t - k) ≤ b * 2 ^ t ↔ a ≤ b * 2 ^ k := by
  rw [units_split b k t, mul_le_mul_iff_left₀ (two_zpow_pos _), Nat.cast_le]

theorem units_le_units_iff' (a b k : Nat) (t : Int) :
    (b : ℚ) * 2 ^ t ≤ a * 2 ^ (t - k) ↔ b * 2 ^ k ≤ a := by
  rw [units_split b k t, mul_le_mul_iff_left₀ (two_zpow_pos _), Nat.cast_le]

/-- Rounding never passes a double above: the double nearest `N * 2 ^ e` is at most every double
that is at least `N * 2 ^ e`. -/
theorem round_le_of_le (s : Sign) {N : Nat} {e : Int} (hN : 0 < N) {M' : Nat} {E' : Int}
    (h' : Normalized M' E') (hle : (N : ℚ) * 2 ^ e ≤ M' * 2 ^ E') :
    round Format.binary64 s N e = .zero s ∨ ∃ M E h, round Format.binary64 s N e = .finite s M E h ∧
      Normalized M E ∧ (M : ℚ) * 2 ^ E ≤ M' * 2 ^ E' := by
  obtain ⟨N₁, k, hval, -, hres⟩ := round_value s e hN
  -- the double above lies on the grid of the last place
  have htE := ulpExponent_le_of_le hN h' hle
  rw [value_eq_units htE] at hle ⊢
  rw [← hval, units_le_units_iff] at hle
  have hr := roundedMantissa_le hle
  rcases hres with ⟨-, hz⟩ | ⟨M, E, h, hfin, hn, hMv⟩
  · exact .inl hz
  · refine .inr ⟨M, E, h, hfin, hn, ?_⟩
    rw [hMv]
    gcongr

/-- Rounding never falls below a positive double below: the double nearest `N * 2 ^ e` is
finite and at least every positive double that is at most `N * 2 ^ e`. -/
theorem le_round_of_le (s : Sign) {N : Nat} {e : Int} (hN : 0 < N) {M' : Nat} {E' : Int}
    (h' : Normalized M' E') (hM' : 0 < M') (hle : (M' : ℚ) * 2 ^ E' ≤ N * 2 ^ e) :
    ∃ M E h, round Format.binary64 s N e = .finite s M E h ∧ Normalized M E ∧
      (M' : ℚ) * 2 ^ E' ≤ M * 2 ^ E := by
  obtain ⟨N₁, k, hval, hlo, hres⟩ := round_value s e hN
  set r := ((⟨N₁, false, false⟩ : ExtendedMantissa) >>> k).roundedMantissa
  have hq := (roundedMantissa_mem ((⟨N₁, false, false⟩ : ExtendedMantissa) >>> k)).1
  rw [mantissa_shiftRight] at hq
  -- the rounded mantissa is positive and worth at least the double below
  have key : 0 < r ∧ (M' : ℚ) * 2 ^ E' ≤ r * 2 ^ ulpExponent N e := by
    by_cases htE : ulpExponent N e ≤ E'
    · rw [value_eq_units htE] at hle ⊢
      rw [← hval, units_le_units_iff'] at hle
      have hT := le_roundedMantissa hle
      have hpos : 0 < M' * 2 ^ (E' - ulpExponent N e).toNat :=
        Nat.mul_pos hM' (Nat.two_pow_pos _)
      exact ⟨by omega, by gcongr⟩
    · -- a double below the last place is below the binade that rounding lands in
      have hq52 : 2 ^ 52 ≤ N₁ / 2 ^ k := hlo.resolve_right (by have := h'.2.1; omega)
      refine ⟨by dsimp only at hq; omega, le_of_lt ?_⟩
      calc (M' : ℚ) * 2 ^ E' < 2 ^ (53 + E') := value_lt_two_zpow h'
        _ = 2 ^ 52 * 2 ^ (E' + 1) := by
          rw [zpow_add₀ two_ne_zero, zpow_add_one₀ two_ne_zero]; ring
        _ ≤ 2 ^ 52 * 2 ^ ulpExponent N e := by gcongr; norm_num; omega
        _ ≤ r * 2 ^ ulpExponent N e := by gcongr; exact_mod_cast hq52.trans hq
  rcases hres with ⟨hz, -⟩ | ⟨M, E, h, hfin, hn, hMv⟩
  · exact absurd hz (by omega)
  · exact ⟨M, E, h, hfin, hn, hMv ▸ key.2⟩

/-- A value that is a positive double rounds to itself. -/
theorem round_of_value (s : Sign) {N : Nat} {e : Int} (hN : 0 < N) {M' : Nat} {E' : Int}
    (h' : Normalized M' E') (hM' : 0 < M') (hv : (N : ℚ) * 2 ^ e = M' * 2 ^ E') :
    ∃ M E h, round Format.binary64 s N e = .finite s M E h ∧ Normalized M E ∧
      (M : ℚ) * 2 ^ E = N * 2 ^ e := by
  obtain ⟨M, E, h, hfin, hn, hge⟩ := le_round_of_le s hN h' hM' hv.ge
  rcases round_le_of_le s hN h' hv.le with hz | ⟨M₂, E₂, h₂, hfin₂, -, hle⟩
  · rw [hfin] at hz
    cases hz
  · rw [hfin] at hfin₂
    cases hfin₂
    exact ⟨M, E, h, hfin, hn, by rw [hv]; exact le_antisymm hle hge⟩

/-- A normalized float is its own rounding. -/
theorem round_normalized (s : Sign) {m : Nat} {e : Int} (h : 0 < m) (hn : Normalized m e) :
    round Format.binary64 s m e = .finite s m e h := by
  obtain ⟨hm, he, hlo⟩ := hn
  have hlog : m.log2 < 53 := (Nat.log2_lt (by omega)).mpr hm
  have ht : ulpExponent m e = e := by
    rw [ulpExponent_eq]
    rcases hlo with hlo | rfl
    · have := (Nat.le_log2 (by omega)).mpr hlo
      omega
    · omega
  have hround : round Format.binary64 s m e =
      roundWithAccuracy Format.binary64 s (m <<< (e - ulpExponent m e).toNat)
        (e - (e - ulpExponent m e).toNat) .exact := rfl
  rw [hround, ht, Int.sub_self, Int.toNat_zero, Nat.shiftLeft_zero, Int.natCast_zero, Int.sub_zero]
  unfold roundWithAccuracy
  rw [shiftToTargetExponent_narrow hm he]
  dsimp only
  rw [roundedMantissa_exact, shiftToTargetExponent_narrow hm he]
  dsimp only
  rw [dif_neg (by omega)]

/-! ## Subtraction -/

/-- Aligning a mantissa to a smaller exponent keeps its value. -/
theorem aligned_value (s : Sign) (m : Nat) {c e : Int} (h : c ≤ e) :
    ((s.apply (m <<< (e - c).toNat : Nat) : Int) : ℚ) * 2 ^ c = s.apply m * 2 ^ e := by
  rw [sign_apply_cast, sign_apply_cast, Nat.shiftLeft_eq, mul_assoc, mul_assoc, shifted_value]
  congr 3
  omega

/-- Subtraction aligns both mantissas to the smaller exponent and normalizes their exact
difference. -/
theorem sub_finite (s₁ s₂ : Sign) {m₁ m₂ : Nat} (e₁ e₂ : Int) (h₁ : 0 < m₁) (h₂ : 0 < m₂) :
    ∃ D : Int, sub Format.binary64 (.finite s₁ m₁ e₁ h₁) (.finite s₂ m₂ e₂ h₂) =
        normalize Format.binary64 D (min e₁ e₂) .positive ∧
      (D : ℚ) * 2 ^ min e₁ e₂ = (finite s₁ m₁ e₁ h₁).toRat - (finite s₂ m₂ e₂ h₂).toRat := by
  refine ⟨s₁.apply (m₁ <<< (e₁ - min e₁ e₂).toNat : Nat) -
    s₂.apply (m₂ <<< (e₂ - min e₁ e₂).toNat : Nat), rfl, ?_⟩
  rw [Int.cast_sub, sub_mul, aligned_value s₁ m₁ (min_le_left e₁ e₂),
    aligned_value s₂ m₂ (min_le_right e₁ e₂)]
  rfl

/-- A nonzero mantissa normalizes to its magnitude rounded, under its own sign. -/
theorem normalize_ne_zero {D : Int} (hD : D ≠ 0) (e : Int) (z : Sign) :
    ∃ s, normalize Format.binary64 D e z = round Format.binary64 s D.natAbs e ∧
      (s.apply 1 : ℚ) * D.natAbs = D := by
  unfold normalize
  rcases lt_trichotomy D 0 with hlt | rfl | hgt
  · refine ⟨.negative, by rw [Int.compare_eq_lt.mpr hlt]; dsimp only; congr 1; omega, ?_⟩
    simp [Sign.apply, Nat.cast_natAbs, abs_of_neg (Int.cast_lt_zero.mpr hlt)]
  · exact absurd rfl hD
  · refine ⟨.positive, by rw [Int.compare_eq_gt.mpr hgt]; dsimp only; congr 1; omega, ?_⟩
    simp [Sign.apply, Nat.cast_natAbs, abs_of_pos (Int.cast_pos.mpr hgt)]

/-- Subtracting two finite floats of different values rounds their exact difference. -/
theorem sub_eq_round {u v : UnpackedFloat} (hu : Canonical u) (hv : Canonical v)
    (hfu : u.isFinite = true) (hfv : v.isFinite = true) (hne : u.toRat ≠ v.toRat) :
    ∃ (s : Sign) (N : Nat) (c : Int), 0 < N ∧
      (s.apply 1 : ℚ) * (N * 2 ^ c) = u.toRat - v.toRat ∧
      sub Format.binary64 u v = round Format.binary64 s N c := by
  cases u with
  | notANumber | infinity => simp [isFinite] at hfu
  | zero s₁ =>
    cases v with
    | notANumber | infinity => simp [isFinite] at hfv
    | zero s₂ => exact absurd rfl hne
    | finite s₂ m₂ e₂ h₂ =>
      -- zero less a float is the float negated, which is its own rounding
      have hsub : sub Format.binary64 (.zero s₁) (.finite s₂ m₂ e₂ h₂) =
          .finite (-s₂) m₂ e₂ h₂ := rfl
      refine ⟨-s₂, m₂, e₂, h₂, ?_, hsub.trans (round_normalized (-s₂) h₂ hv.1).symm⟩
      rw [toRat_zero, toRat_finite, sign_apply_cast, sign_apply_neg]
      push_cast
      ring
  | finite s₁ m₁ e₁ h₁ =>
    cases v with
    | notANumber | infinity => simp [isFinite] at hfv
    | zero s₂ =>
      have hsub : sub Format.binary64 (.finite s₁ m₁ e₁ h₁) (.zero s₂) = .finite s₁ m₁ e₁ h₁ :=
        rfl
      refine ⟨s₁, m₁, e₁, h₁, ?_, hsub.trans (round_normalized s₁ h₁ hu.1).symm⟩
      rw [toRat_zero, toRat_finite, sign_apply_cast]
      ring
    | finite s₂ m₂ e₂ h₂ =>
      obtain ⟨D, hsub, hD⟩ := sub_finite s₁ s₂ e₁ e₂ h₁ h₂
      have hD0 : D ≠ 0 := by
        rintro rfl
        rw [Int.cast_zero, zero_mul] at hD
        exact hne (sub_eq_zero.mp hD.symm)
      obtain ⟨s, hnorm, hs⟩ := normalize_ne_zero hD0 (min e₁ e₂) .positive
      refine ⟨s, D.natAbs, min e₁ e₂, by omega, ?_, hsub.trans hnorm⟩
      rw [← hD, ← hs, mul_assoc]

/-- Subtracting two finite floats of one value gives a zero. -/
theorem sub_eq_zero_of_toRat_eq {u v : UnpackedFloat} (hfu : u.isFinite = true)
    (hfv : v.isFinite = true) (heq : u.toRat = v.toRat) :
    ∃ z, sub Format.binary64 u v = .zero z := by
  cases u with
  | notANumber | infinity => simp [isFinite] at hfu
  | zero s₁ =>
    cases v with
    | notANumber | infinity => simp [isFinite] at hfv
    | zero s₂ =>
      by_cases hs : s₁ == -s₂
      · exact ⟨s₁, by simp only [sub, hs, if_true]⟩
      · exact ⟨.positive, by simp only [sub, hs, if_false, Bool.false_eq_true]⟩
    | finite s₂ m₂ e₂ h₂ => exact absurd heq.symm (toRat_finite_ne_zero s₂ e₂ h₂)
  | finite s₁ m₁ e₁ h₁ =>
    cases v with
    | notANumber | infinity => simp [isFinite] at hfv
    | zero s₂ => exact absurd heq (toRat_finite_ne_zero s₁ e₁ h₁)
    | finite s₂ m₂ e₂ h₂ =>
      obtain ⟨D, hsub, hD⟩ := sub_finite s₁ s₂ e₁ e₂ h₁ h₂
      have hD0 : D = 0 := by
        rw [heq, sub_self] at hD
        exact_mod_cast (mul_eq_zero.mp hD).resolve_right (two_zpow_pos _).ne'
      subst hD0
      exact ⟨.positive, hsub⟩

/-- The rationals that finite doubles hold: zero, and `±M * 2 ^ E` for a normalized `M` and `E`
whose exponent fits the eleven exponent bits. -/
def Representable (q : ℚ) : Prop :=
  q = 0 ∨ ∃ M E, 0 < M ∧ Normalized M E ∧ E ≤ 971 ∧ |q| = M * 2 ^ E

/-- An integer of at most 53 bits is a double. -/
theorem representable_of_int {n : Int} (h : n.natAbs ≤ 2 ^ 53) : Representable n := by
  by_cases h0 : n = 0
  · exact .inl (by simp [h0])
  right
  have ha : 0 < n.natAbs := Int.natAbs_pos.mpr h0
  have habs : |(n : ℚ)| = n.natAbs := by simp [Nat.cast_natAbs]
  by_cases htop : n.natAbs = 2 ^ 53
  · refine ⟨2 ^ 52, 1, by norm_num, ⟨by norm_num, by norm_num, .inl le_rfl⟩, by norm_num, ?_⟩
    rw [habs, htop]
    norm_num
  · -- shift the integer up to 53 bits, at a negative exponent
    have hL : n.natAbs.log2 < 53 := (Nat.log2_lt ha.ne').mpr (by omega)
    have h₁ := Nat.log2_self_le ha.ne'
    have h₂ := Nat.lt_log2_self (n := n.natAbs)
    refine ⟨n.natAbs * 2 ^ (52 - n.natAbs.log2), (n.natAbs.log2 : Int) - 52,
      Nat.mul_pos ha (Nat.two_pow_pos _), ⟨?_, by omega, .inl ?_⟩, by omega, ?_⟩
    · calc n.natAbs * 2 ^ (52 - n.natAbs.log2)
          < 2 ^ (n.natAbs.log2 + 1) * 2 ^ (52 - n.natAbs.log2) :=
            Nat.mul_lt_mul_of_pos_right h₂ (Nat.two_pow_pos _)
        _ = 2 ^ 53 := by rw [← Nat.pow_add]; congr 1; omega
    · calc 2 ^ 52 = 2 ^ n.natAbs.log2 * 2 ^ (52 - n.natAbs.log2) := by
            rw [← Nat.pow_add]; congr 1; omega
        _ ≤ n.natAbs * 2 ^ (52 - n.natAbs.log2) := Nat.mul_le_mul_right _ h₁
    · rw [habs, shifted_value,
        show ((n.natAbs.log2 : Int) - 52) + ((52 - n.natAbs.log2 : Nat) : Int) = 0 by omega,
        zpow_zero, mul_one]

/-- A rounding whose exact value is a double keeps that value through packing. -/
theorem unpack_pack_round_exact (s : Sign) {N : Nat} {c : Int} (hN : 0 < N)
    (hd : Representable ((s.apply 1 : ℚ) * (N * 2 ^ c))) :
    (unpack Format.binary64 (pack Format.binary64 (round Format.binary64 s N c))).isFinite = true ∧
      (unpack Format.binary64 (pack Format.binary64 (round Format.binary64 s N c))).toRat =
        s.apply 1 * (N * 2 ^ c) := by
  rcases hd with hd | ⟨M', E', hM', h', hE', hd⟩
  · exact absurd hd (mul_ne_zero (by cases s <;> simp [Sign.apply]) (value_pos hN c).ne')
  · have habs : (N : ℚ) * 2 ^ c = M' * 2 ^ E' := by
      rw [← hd, abs_signed_value s hN c]
    obtain ⟨M, E, h, hround, hn, hMv⟩ := round_of_value s hN h' hM' habs
    have hE : E ≤ 971 := (exponent_le_of_value_le hn h' (by rw [hMv, habs])).trans hE'
    rw [hround, unpack_pack_finite s h hn, if_pos hE]
    refine ⟨rfl, ?_⟩
    rw [toRat_finite, sign_apply_cast, mul_assoc, hMv]

/-- Subtraction is exact when the difference is itself a double. -/
theorem sub_exact {u v : UnpackedFloat} (hu : Canonical u) (hv : Canonical v)
    (hfu : u.isFinite = true) (hfv : v.isFinite = true) (hd : Representable (u.toRat - v.toRat)) :
    (unpack Format.binary64 (pack Format.binary64 (sub Format.binary64 u v))).isFinite = true ∧
      (unpack Format.binary64 (pack Format.binary64 (sub Format.binary64 u v))).toRat =
        u.toRat - v.toRat := by
  by_cases heq : u.toRat = v.toRat
  · obtain ⟨z, hz⟩ := sub_eq_zero_of_toRat_eq hfu hfv heq
    rw [hz, unpack_pack_zero, heq, sub_self]
    exact ⟨rfl, rfl⟩
  · obtain ⟨s, N, c, hN, hval, hsub⟩ := sub_eq_round hu hv hfu hfv heq
    rw [hsub, ← hval]
    exact unpack_pack_round_exact s hN (hval ▸ hd)

/-- Subtracting finite floats gives no NaN. -/
theorem sub_ne_notANumber {u v : UnpackedFloat} (hu : Canonical u) (hv : Canonical v)
    (hfu : u.isFinite = true) (hfv : v.isFinite = true) :
    unpack Format.binary64 (pack Format.binary64 (sub Format.binary64 u v)) ≠ .notANumber := by
  by_cases heq : u.toRat = v.toRat
  · obtain ⟨z, hz⟩ := sub_eq_zero_of_toRat_eq hfu hfv heq
    rw [hz, unpack_pack_zero]
    exact nofun
  · obtain ⟨s, N, c, hN, -, hsub⟩ := sub_eq_round hu hv hfu hfv heq
    rw [hsub]
    rcases round_cases s c hN with hz | ⟨M, E, h, hround, hn⟩
    · rw [hz, unpack_pack_zero]
      exact nofun
    · rw [hround, unpack_pack_finite s h hn]
      split <;> exact nofun

/-- The magnitude of a difference, as subtraction rounds it, is at most every double that is at
least the exact magnitude. -/
theorem sub_abs_le {u v w : UnpackedFloat} (hu : Canonical u) (hv : Canonical v)
    (hw : Canonical w) (hfu : u.isFinite = true) (hfv : v.isFinite = true)
    (hfw : w.isFinite = true) (hle : |u.toRat - v.toRat| ≤ w.toRat) :
    (unpack Format.binary64 (pack Format.binary64 (sub Format.binary64 u v))).abs.le w = true := by
  have hw0 : 0 ≤ w.toRat := (abs_nonneg _).trans hle
  have hzero : ∀ z, (zero z).abs.le w = true := fun z =>
    (le_iff_toRat_le (u := (zero z).abs) trivial hw rfl hfw).mpr hw0
  by_cases heq : u.toRat = v.toRat
  · obtain ⟨z, hz⟩ := sub_eq_zero_of_toRat_eq hfu hfv heq
    rw [hz, unpack_pack_zero]
    exact hzero z
  · obtain ⟨s, N, c, hN, hval, hsub⟩ := sub_eq_round hu hv hfu hfv heq
    have habs : (N : ℚ) * 2 ^ c = |u.toRat - v.toRat| := by
      rw [← hval, abs_signed_value s hN c]
    have hpos : 0 < w.toRat := (abs_pos.mpr (sub_ne_zero.mpr heq)).trans_le hle
    -- so `w` is a positive double
    cases w with
    | notANumber | infinity => simp [isFinite] at hfw
    | zero z => exact absurd hpos (by simp)
    | finite sw M' E' h' =>
      cases sw with
      | negative =>
        exact absurd hpos (not_lt.mpr (by simpa [Sign.apply] using (value_pos h' E').le))
      | positive =>
        rw [toRat_finite_positive, ← habs] at hle
        rcases round_le_of_le s hN hw.1 hle with hz | ⟨M, E, h, hround, hn, hMle⟩
        · rw [hsub, hz, unpack_pack_zero]
          exact hzero s
        · -- below a double, the rounded difference cannot overflow
          have hE : E ≤ 971 := (exponent_le_of_value_le hn hw.1 hMle).trans hw.2
          rw [hsub, hround, unpack_pack_finite s h hn, if_pos hE]
          refine (le_iff_toRat_le (u := (finite s M E h).abs)
            (show Normalized M E ∧ E ≤ 971 from ⟨hn, hE⟩) hw rfl rfl).mpr ?_
          rw [abs, toRat_finite_positive, toRat_finite_positive]
          exact hMle

end Float.Model.UnpackedFloat

open Float.Model Float.Model.UnpackedFloat

namespace Float

/-- The exact value of a finite double; the infinities and NaN read as zero. -/
def toRat (x : Float) : ℚ := x.toModel.unpack.toRat

/-- A double is at least the rational `q`: `+∞` always, a finite double when its exact value is,
and `-∞` and NaN never. -/
def AtLeast (x : Float) (q : ℚ) : Prop :=
  x.toModel.unpack = .infinity .positive ∨ (x.isFinite = true ∧ q ≤ x.toRat)

theorem isFinite_eq (x : Float) : x.isFinite = x.toModel.unpack.isFinite := rfl

theorem le_iff_unpack (x y : Float) : x ≤ y ↔ x.toModel.unpack.le y.toModel.unpack = true := by
  show decide (x.toModel.le y.toModel = true) = true ↔ _
  rw [decide_eq_true_eq]
  rfl

theorem toModel_unpack_sub (x y : Float) :
    (x - y).toModel.unpack = UnpackedFloat.unpack Format.binary64
      (UnpackedFloat.pack Format.binary64
        (UnpackedFloat.sub Format.binary64 x.toModel.unpack y.toModel.unpack)) := by
  show (Float.ofModel (Float.Model.pack (UnpackedFloat.sub Format.binary64
    x.toModel.unpack y.toModel.unpack))).toModel.unpack = _
  rw [toModel_unpack_ofModel_pack]

theorem toModel_unpack_abs (x : Float) : x.abs.toModel.unpack = x.toModel.unpack.abs := by
  show (Float.ofModel (Float.Model.pack x.toModel.unpack.abs)).toModel.unpack = _
  rw [toModel_unpack_ofModel_pack, unpack_pack_abs]
  exact congrArg UnpackedFloat.abs (unpack_pack_unpack Format.binary64 (by decide) _)

theorem isFinite_abs (x : Float) : x.abs.isFinite = x.isFinite := by
  rw [isFinite_eq, isFinite_eq, toModel_unpack_abs, UnpackedFloat.isFinite_abs]

theorem toRat_abs (x : Float) : x.abs.toRat = |x.toRat| := by
  rw [toRat, toRat, toModel_unpack_abs, UnpackedFloat.toRat_abs]

/-- A finite double is at most `y` exactly when `y` is at least its value. -/
theorem le_iff_atLeast {x : Float} (hx : x.isFinite = true) (y : Float) :
    x ≤ y ↔ y.AtLeast x.toRat := by
  rw [le_iff_unpack, AtLeast, isFinite_eq, toRat, toRat]
  rw [isFinite_eq] at hx
  have hcy := canonical_unpack y.toModel.toBits.toBitVec
  change Canonical y.toModel.unpack at hcy
  cases hy : y.toModel.unpack with
  | infinity s =>
    cases s with
    | negative => simp [le_negative_infinity hx, UnpackedFloat.isFinite]
    | positive =>
      have hnan : x.toModel.unpack ≠ .notANumber := fun h => by
        simp [h, UnpackedFloat.isFinite] at hx
      simp [le_infinity hnan]
  | notANumber => simp [le_notANumber, UnpackedFloat.isFinite]
  | zero s =>
    simp only [reduceCtorEq, false_or, UnpackedFloat.isFinite, true_and]
    exact le_iff_toRat_le (v := .zero s) (canonical_unpack _) trivial hx rfl
  | finite s m e h =>
    simp only [reduceCtorEq, false_or, UnpackedFloat.isFinite, true_and]
    rw [hy] at hcy
    exact le_iff_toRat_le (canonical_unpack _) hcy hx rfl

/-- Subtraction is exact when the difference of two finite doubles is a double. -/
theorem sub_exact {x y : Float} (hx : x.isFinite = true) (hy : y.isFinite = true)
    (hd : Representable (x.toRat - y.toRat)) :
    (x - y).isFinite = true ∧ (x - y).toRat = x.toRat - y.toRat := by
  rw [isFinite_eq, toRat, toModel_unpack_sub]
  exact UnpackedFloat.sub_exact (canonical_unpack _) (canonical_unpack _) hx hy hd

/-- The magnitude of a difference of finite doubles, rounded, is at most every double that is at
least the exact magnitude. -/
theorem abs_sub_le {x y τ : Float} (hx : x.isFinite = true) (hy : y.isFinite = true)
    (hτ : τ.AtLeast |x.toRat - y.toRat|) : (x - y).abs ≤ τ := by
  rw [le_iff_unpack, toModel_unpack_abs, toModel_unpack_sub]
  rcases hτ with hinf | ⟨hfτ, hle⟩
  · rw [hinf]
    exact le_infinity (abs_ne_notANumber
      (sub_ne_notANumber (canonical_unpack _) (canonical_unpack _) hx hy))
  · exact sub_abs_le (canonical_unpack _) (canonical_unpack _) (canonical_unpack _) hx hy hfτ hle

end Float

namespace BranchSensitivity.Value

/-- The double of a natural number of at most 53 bits is that number. -/
theorem nearestOfNat_exact {n : Nat} (h : n ≤ 2 ^ 53) :
    (Decimal.nearestOfNat n).isFinite = true ∧ (Decimal.nearestOfNat n).toRat = n := by
  unfold Decimal.nearestOfNat
  rw [if_pos (by omega)]
  have hx : (UInt64.ofNat n).toNat = n := by
    rw [UInt64.toNat_ofNat', Nat.mod_eq_of_lt (by omega)]
  -- the conversion normalizes the integer at exponent zero
  have hu : n.toUInt64.toFloat.toModel.unpack = UnpackedFloat.unpack Format.binary64
      (UnpackedFloat.pack Format.binary64 (UnpackedFloat.normalize Format.binary64 n 0 .positive)) := by
    show (Float.ofModel (Float.Model.pack (ofUInt64 Format.binary64 n.toUInt64))).toModel.unpack = _
    rw [Float.toModel_unpack_ofModel_pack]
    simp only [UnpackedFloat.ofUInt64, UnpackedFloat.ofNat, UnpackedFloat.ofInt, Nat.toUInt64, hx]
  rw [Float.isFinite_eq, Float.toRat, hu]
  rcases Nat.eq_zero_or_pos n with rfl | hn
  · exact ⟨rfl, rfl⟩
  · unfold UnpackedFloat.normalize
    rw [Int.compare_eq_gt.mpr (by omega), Int.toNat_natCast]
    have hd : Representable ((Sign.positive.apply 1 : ℚ) * (n * 2 ^ (0 : Int))) := by
      convert representable_of_int (n := n) (by simpa using h) using 1
      simp [Sign.apply]
    obtain ⟨hf, hv⟩ := unpack_pack_round_exact .positive hn hd
    exact ⟨hf, by rw [hv]; simp [Sign.apply]⟩

/-- The double of an integer of at most 53 bits is that integer. -/
theorem floatOfInt_exact {n : Int} (h : n.natAbs ≤ 2 ^ 53) :
    (floatOfInt n).isFinite = true ∧ (floatOfInt n).toRat = n := by
  unfold floatOfInt
  split
  · rename_i hn
    obtain ⟨hf, hv⟩ := nearestOfNat_exact (n := n.toNat) (by omega)
    exact ⟨hf, by rw [hv]; exact_mod_cast Int.toNat_of_nonneg hn⟩
  · rename_i hn
    obtain ⟨hf, hv⟩ := nearestOfNat_exact h
    rw [Float.isFinite_eq, Float.toRat, Float.toModel_unpack_neg, isFinite_neg, toRat_neg]
    refine ⟨hf, ?_⟩
    rw [← Float.toRat, hv, Nat.cast_natAbs, Int.cast_abs,
      abs_of_neg (Int.cast_lt_zero.mpr (by omega)), neg_neg]

end BranchSensitivity.Value
