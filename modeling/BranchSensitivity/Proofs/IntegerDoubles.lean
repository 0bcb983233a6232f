import BranchSensitivity.Proofs.FloatLaws
import BranchSensitivity.Value.Basic

/-!
# Doubles of 64-bit integers

A positive integer below `2 ^ 64` rounds to a normal double: the first shift keeps the 53 bits
from the leading one, rounding adds at most one to them, and a carry to `2 ^ 53` moves into the
exponent. A normal double with an exponent in the normal range survives packing unchanged. So
the double of an integer of `[1, 2 ^ 63)`, the bound of a replacement draw, is finite and
positive, below it lies its negation, and the width `b - -b` of the range between them is
finite too:

    (floatOfInt n).isFinite ∧ (-floatOfInt n).isFinite ∧ -floatOfInt n < floatOfInt n ∧
      (floatOfInt n - -floatOfInt n).isFinite                        (Value.floatOfInt_range)
-/

namespace Float.Model.UnpackedFloat

/-! ## Rounding -/

theorem mantissa_shiftRight (em : ExtendedMantissa) (k : Nat) :
    (em >>> k).mantissa = em.mantissa / 2 ^ k := by
  induction k with
  | zero => simp [HShiftRight.hShiftRight, Nat.repeat]
  | succ k ih =>
    change (ExtendedMantissa.shiftRightOne (em >>> k)).mantissa = _
    rw [ExtendedMantissa.shiftRightOne, ih, Nat.div_div_eq_div_mul, Nat.pow_succ]

theorem roundedMantissa_mem (em : ExtendedMantissa) :
    em.mantissa ≤ em.roundedMantissa ∧ em.roundedMantissa ≤ em.mantissa + 1 := by
  rcases em with ⟨m, r, s⟩
  cases r <;> cases s <;>
    simp only [ExtendedMantissa.roundedMantissa, ExtendedMantissa.accuracy,
      Accuracy.roundToNearestEven] <;> omega

/-- A mantissa of at most 53 bits at a normal exponent is kept as it is. -/
theorem shiftToTargetExponent_narrow {m : Nat} {e : Int} (hm : m < 2 ^ 53) (he : -1074 ≤ e) :
    shiftToTargetExponent Format.binary64 m e .exact = (⟨m, false, false⟩, e) := by
  have hlog : m.log2 ≤ 52 := by
    rcases Nat.eq_zero_or_pos m with rfl | hpos
    · simp
    · have := (Nat.log2_lt (Nat.pos_iff_ne_zero.mp hpos)).mpr hm
      omega
  have hk : (Format.binary64.targetExponent (totalExponent m e) - e).toNat = 0 := by
    simp only [Format.targetExponent, totalExponent, Format.mantissaBits, Format.minExponent]
    omega
  simp only [shiftToTargetExponent, shiftToExponent, hk, Int.natCast_zero, Int.add_zero]
  rfl

/-- The carry of a rounding to `2 ^ 53` moves into the exponent. -/
theorem shiftToTargetExponent_carry {e : Int} (he : -1074 ≤ e) :
    shiftToTargetExponent Format.binary64 (2 ^ 53) e .exact = (⟨2 ^ 52, false, false⟩, e + 1) := by
  have hk : (Format.binary64.targetExponent (totalExponent (2 ^ 53) e) - e).toNat = 1 := by
    simp only [Format.targetExponent, totalExponent, Format.mantissaBits, Format.minExponent,
      Nat.log2_two_pow]
    omega
  simp only [shiftToTargetExponent, shiftToExponent, hk, Int.natCast_one]
  rfl

/-- A first shift that keeps 53 significant bits rounds to a normal mantissa: the rounded one, or
`2 ^ 52` one exponent up when rounding carries to `2 ^ 53`. -/
theorem roundWithAccuracy_normal (s : Sign) (m : Nat) (e : Int) (a : Accuracy)
    (hlo : 2 ^ 52 ≤ (shiftToTargetExponent Format.binary64 m e a).1.mantissa)
    (hhi : (shiftToTargetExponent Format.binary64 m e a).1.mantissa < 2 ^ 53)
    (he : -1074 ≤ (shiftToTargetExponent Format.binary64 m e a).2) :
    ∃ M E h, roundWithAccuracy Format.binary64 s m e a = .finite s M E h ∧
      2 ^ 52 ≤ M ∧ M < 2 ^ 53 ∧ (shiftToTargetExponent Format.binary64 m e a).2 ≤ E ∧
      E ≤ (shiftToTargetExponent Format.binary64 m e a).2 + 1 := by
  have hr := roundedMantissa_mem (shiftToTargetExponent Format.binary64 m e a).1
  unfold roundWithAccuracy
  generalize shiftToTargetExponent Format.binary64 m e a = first at hlo hhi he hr ⊢
  obtain ⟨em, e₁⟩ := first
  dsimp only at hlo hhi he hr ⊢
  by_cases hsmall : em.roundedMantissa < 2 ^ 53
  · rw [shiftToTargetExponent_narrow hsmall he]
    dsimp only
    rw [dif_neg (by omega)]
    exact ⟨_, _, _, rfl, by omega, hsmall, Int.le_refl _, by omega⟩
  · -- rounding carried to `2 ^ 53`
    have hcarry : em.roundedMantissa = 2 ^ 53 := by omega
    rw [hcarry, shiftToTargetExponent_carry he]
    dsimp only
    rw [dif_neg (by decide)]
    exact ⟨_, _, _, rfl, Nat.le_refl _, by decide, by omega, Int.le_refl _⟩

theorem log2_shiftLeft {N : Nat} (hN : 0 < N) (j : Nat) : (N <<< j).log2 = N.log2 + j := by
  have h₁ := Nat.log2_self_le (Nat.pos_iff_ne_zero.mp hN)
  have h₂ := Nat.lt_log2_self (n := N)
  rw [Nat.shiftLeft_eq]
  apply (Nat.log2_eq_iff (Nat.pos_iff_ne_zero.mp (Nat.mul_pos hN (Nat.two_pow_pos j)))).mpr
  constructor
  · rw [Nat.pow_add]
    exact Nat.mul_le_mul_right _ h₁
  · calc N * 2 ^ j < 2 ^ (N.log2 + 1) * 2 ^ j := Nat.mul_lt_mul_of_pos_right h₂ (Nat.two_pow_pos j)
      _ = 2 ^ (N.log2 + j + 1) := by rw [← Nat.pow_add, Nat.add_right_comm]

/-- A positive mantissa at a normal exponent rounds to a normal double: the last kept bit is the
53rd one from the leading one. -/
theorem round_normal (s : Sign) {N : Nat} (e : Int) (hN : 0 < N) (he : -1000 ≤ e) :
    ∃ M E h, round Format.binary64 s N e = .finite s M E h ∧ 2 ^ 52 ≤ M ∧ M < 2 ^ 53 ∧
      (N.log2 : Int) + e - 52 ≤ E ∧ E ≤ N.log2 + e - 51 := by
  have h₁ := Nat.log2_self_le (Nat.pos_iff_ne_zero.mp hN)
  have h₂ := Nat.lt_log2_self (n := N)
  have ht : Format.binary64.targetExponent (totalExponent N e) = N.log2 + e - 52 := by
    simp only [Format.targetExponent, totalExponent, Format.mantissaBits, Format.minExponent]
    omega
  unfold round
  rw [ht]
  simp only [decreaseExponent]
  -- a short mantissa is shifted left to 53 bits, a long one is kept and shifted right below
  generalize hj : (e - (N.log2 + e - 52)).toNat = j
  have hlog := log2_shiftLeft hN j
  have ht' : Format.binary64.targetExponent (totalExponent (N <<< j) (e - j)) = N.log2 + e - 52 := by
    simp only [Format.targetExponent, totalExponent, Format.mantissaBits, Format.minExponent, hlog]
    omega
  generalize hk : (N.log2 + e - 52 - (e - j)).toNat = k
  have hfirst : shiftToTargetExponent Format.binary64 (N <<< j) (e - j) .exact =
      (ExtendedMantissa.mk (N <<< j) false false >>> k, N.log2 + e - 52) := by
    simp only [shiftToTargetExponent, shiftToExponent, ht', hk]
    rw [show e - (j : Int) + k = N.log2 + e - 52 by omega]
    rfl
  have hmant : (ExtendedMantissa.mk (N <<< j) false false >>> k).mantissa = N * 2 ^ j / 2 ^ k := by
    rw [mantissa_shiftRight, Nat.shiftLeft_eq]
  -- the kept mantissa has 53 bits
  have hbits : 2 ^ 52 ≤ N * 2 ^ j / 2 ^ k ∧ N * 2 ^ j / 2 ^ k < 2 ^ 53 := by
    by_cases hL : N.log2 ≤ 52
    · obtain rfl : j = 52 - N.log2 := by omega
      obtain rfl : k = 0 := by omega
      rw [Nat.pow_zero, Nat.div_one]
      constructor
      · calc 2 ^ 52 = 2 ^ N.log2 * 2 ^ (52 - N.log2) := by rw [← Nat.pow_add]; congr 1; omega
          _ ≤ N * 2 ^ (52 - N.log2) := Nat.mul_le_mul_right _ h₁
      · calc N * 2 ^ (52 - N.log2) < 2 ^ (N.log2 + 1) * 2 ^ (52 - N.log2) :=
            Nat.mul_lt_mul_of_pos_right h₂ (Nat.two_pow_pos _)
          _ = 2 ^ 53 := by rw [← Nat.pow_add]; congr 1; omega
    · obtain rfl : j = 0 := by omega
      obtain rfl : k = N.log2 - 52 := by omega
      rw [Nat.pow_zero, Nat.mul_one]
      constructor
      · apply (Nat.le_div_iff_mul_le (Nat.two_pow_pos _)).mpr
        rw [← Nat.pow_add, show 52 + (N.log2 - 52) = N.log2 by omega]
        exact h₁
      · apply (Nat.div_lt_iff_lt_mul (Nat.two_pow_pos _)).mpr
        rw [← Nat.pow_add, show 53 + (N.log2 - 52) = N.log2 + 1 by omega]
        exact h₂
  obtain ⟨hlo, hhi⟩ := hbits
  obtain ⟨M, E, h, hround, hM₁, hM₂, hE₁, hE₂⟩ := roundWithAccuracy_normal s (N <<< j) (e - j)
    .exact (by rw [hfirst]; dsimp only; rw [hmant]; exact hlo)
    (by rw [hfirst]; dsimp only; rw [hmant]; exact hhi) (by rw [hfirst]; dsimp only; omega)
  rw [hfirst] at hE₁ hE₂
  dsimp only at hE₁ hE₂
  exact ⟨M, E, h, hround, hM₁, hM₂, hE₁, by omega⟩

/-! ## Packing and subtraction -/

/-- The implicit leading bit of a normal mantissa adds `2 ^ w` to its stored bits. -/
theorem append_implicit_toNat {w : Nat} (M : BitVec w) : (1#1 ++ M).toNat = 2 ^ w + M.toNat := by
  rw [BitVec.toNat_append, ← Nat.shiftLeft_add_eq_or_of_lt M.isLt]
  simp [Nat.shiftLeft_eq]

/-- A normal double whose exponent fits the eleven exponent bits survives packing. -/
theorem unpack_pack_normal (s : Sign) {M : Nat} {E : Int} (h : 0 < M) (hM₁ : 2 ^ 52 ≤ M)
    (hM₂ : M < 2 ^ 53) (hE₁ : -1074 ≤ E) (hE₂ : E ≤ 971) :
    unpack Format.binary64 (pack Format.binary64 (.finite s M E h)) = .finite s M E h := by
  have hlog : M.log2 = 52 := (Nat.log2_eq_iff (by omega)).mpr ⟨hM₁, hM₂⟩
  have hb : (E + ↑(2 ^ (11 - 1) - 1 : Nat) + ↑(52 : Nat)).toNat = (E + 1075).toNat := by omega
  simp only [pack, Format.exponentBias, Format.mantissaBits, hlog, hb, if_true]
  rw [if_neg (by omega)]
  -- the biased exponent is neither all zeros nor all ones
  have hexp : (BitVec.ofNat 11 (E + 1075).toNat).toNat = (E + 1075).toNat := by
    rw [BitVec.toNat_ofNat, Nat.mod_eq_of_lt (by omega)]
  have hne₁ : BitVec.ofNat 11 (E + 1075).toNat ≠ -1#11 := by
    intro he
    have := congrArg BitVec.toNat he
    rw [hexp] at this
    simp at this
    omega
  have hne₀ : BitVec.ofNat 11 (E + 1075).toNat ≠ 0#11 := by
    intro he
    have := congrArg BitVec.toNat he
    rw [hexp] at this
    simp at this
    omega
  simp only [unpack, unpackMantissa_packComponents, unpackExponent_packComponents,
    unpackSign_packComponents, Sign.ofBitVec_toBitVec, hne₁, hne₀, if_false]
  congr 1
  · rw [append_implicit_toNat, BitVec.toNat_ofNat]
    omega
  · rw [hexp, show Format.binary64.exponentBias = 1023 from rfl]
    omega

/-- Twice a normal double, as subtraction computes it, is rounded once more. -/
theorem sub_finite_neg {M : Nat} {E : Int} (h : 0 < M) :
    UnpackedFloat.sub Format.binary64 (.finite .positive M E h) (.finite .negative M E h) =
      round Format.binary64 .positive (2 * M) E := by
  simp only [UnpackedFloat.sub, decreaseExponent, Int.min_self, Int.sub_self, Int.toNat_zero,
    Nat.shiftLeft_zero, Int.natCast_zero, Int.sub_zero, Sign.apply, normalize]
  rw [Int.compare_eq_gt.2 (by omega)]
  dsimp only
  congr 1
  omega

end Float.Model.UnpackedFloat

open Float.Model Float.Model.UnpackedFloat

namespace BranchSensitivity.Value

/-- The double of an integer of `[1, 2 ^ 63)` is normal and positive, with an exponent of at most
eleven. -/
theorem floatOfInt_unpack {n : Int} (h₁ : 1 ≤ n) (h₂ : n < 2 ^ 63) :
    ∃ M E h, (floatOfInt n).toModel.unpack = .finite .positive M E h ∧ 2 ^ 52 ≤ M ∧
      M < 2 ^ 53 ∧ -52 ≤ E ∧ E ≤ 11 := by
  have hlt : n.toNat < 2 ^ 64 := by omega
  unfold floatOfInt Decimal.nearestOfNat
  rw [if_pos (by omega), if_pos (by omega)]
  have hpos : 0 < n.toNat := by omega
  -- the conversion rounds the integer once, at exponent zero
  have hu : n.toNat.toUInt64.toFloat.toModel.unpack =
      unpack Format.binary64 (pack Format.binary64 (round Format.binary64 .positive n.toNat 0)) := by
    show (Float.ofModel (Float.Model.pack (ofUInt64 Format.binary64 n.toNat.toUInt64))).toModel.unpack = _
    rw [Float.toModel_unpack_ofModel_pack]
    have hx : (UInt64.ofNat n.toNat).toNat = n.toNat := by
      rw [UInt64.toNat_ofNat', Nat.mod_eq_of_lt hlt]
    simp only [UnpackedFloat.ofUInt64, UnpackedFloat.ofNat, UnpackedFloat.ofInt,
      UnpackedFloat.normalize,
      Nat.toUInt64, hx]
    rw [Int.compare_eq_gt.2 (by omega), Int.toNat_natCast]
  obtain ⟨M, E, h, hr, hM₁, hM₂, hE₁, hE₂⟩ := round_normal .positive 0 hpos (by omega)
  have hlog : n.toNat.log2 < 63 := (Nat.log2_lt (by omega)).mpr (by omega)
  rw [hu, hr, unpack_pack_normal .positive h hM₁ hM₂ (by omega) (by omega)]
  exact ⟨M, E, h, rfl, hM₁, hM₂, by omega, by omega⟩

/-- The bound of a replacement double, the double of an integer of `[1, 2 ^ 63)`, makes a
finite range `[-bound, bound)` of finite width. -/
theorem floatOfInt_range {n : Int} (h₁ : 1 ≤ n) (h₂ : n < 2 ^ 63) :
    (floatOfInt n).isFinite = true ∧ (-floatOfInt n).isFinite = true ∧
      -floatOfInt n < floatOfInt n ∧ (floatOfInt n - -floatOfInt n).isFinite = true := by
  obtain ⟨M, E, h, hu, hM₁, hM₂, hE₁, hE₂⟩ := floatOfInt_unpack h₁ h₂
  have hneg : (-floatOfInt n).toModel.unpack = .finite .negative M E h := by
    rw [Float.toModel_unpack_neg, hu]
    rfl
  refine ⟨?_, ?_, ?_, ?_⟩
  · show (floatOfInt n).toModel.unpack.isFinite = true
    rw [hu]
    rfl
  · show (-floatOfInt n).toModel.unpack.isFinite = true
    rw [hneg]
    rfl
  · show Float.lt (-floatOfInt n) (floatOfInt n) = true
    unfold Float.lt
    rw [decide_eq_true_eq]
    show ((-floatOfInt n).toModel.unpack.compare (floatOfInt n).toModel.unpack == some .lt) = true
    rw [hneg, hu]
    rfl
  · -- the width is twice the bound, rounded to a normal double again
    obtain ⟨M', E', h', hr, hM₁', hM₂', hE₁', hE₂'⟩ :=
      round_normal .positive E (N := 2 * M) (by omega) (by omega)
    have hlog : (2 * M).log2 = 53 := (Nat.log2_eq_iff (by omega)).mpr ⟨by omega, by omega⟩
    show (Float.ofModel (Float.Model.pack (UnpackedFloat.sub Format.binary64
      (floatOfInt n).toModel.unpack (-floatOfInt n).toModel.unpack))).toModel.unpack.isFinite = true
    rw [Float.toModel_unpack_ofModel_pack, hu, hneg, sub_finite_neg, hr,
      unpack_pack_normal .positive h' hM₁' hM₂' (by omega) (by omega)]
    rfl

end BranchSensitivity.Value
