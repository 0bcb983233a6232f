import Mathlib
/-!
# Sign laws of the logical float model

Doubles and singles compute through `Float.Model.UnpackedFloat`: an operation unpacks its
operands' bits into a sign, a mantissa and an exponent, works there, and packs the result back.
The laws below are about signs, and they hold in both formats:

    (a - b).abs = (b - a).abs          -- rounding to nearest is symmetric about zero
    (a == b) = (b == a)
    (a == b) = true → ((if b == 0.0 then 1.0 else -b) == b) = false

The last says that when a value equals `b`, replacing it by one (for a zero `b`) or by `-b`
gives a value that differs from `b`: `b` is no NaN, so `-b` carries the other sign, and only a
zero equals its negation.

Packing then unpacking changes no sign, and unpacking after packing returns what any bits
unpack to (`unpack_pack_unpack`): the unpacked form of bits is canonical and fits the format.
-/

namespace Float.Model.UnpackedFloat

/-! ## Packing and signs -/

/-- The sign bit decides only the sign of what the fields unpack to. -/
theorem unpack_packComponents_neg (spec : Format) (s : Sign) (E : BitVec spec.exponentBits)
    (M : BitVec spec.mantissaBitsWithoutImplicit) :
    unpack spec (packComponents spec (-s) E M) = (unpack spec (packComponents spec s E M)).neg := by
  simp only [unpack, unpackMantissa_packComponents, unpackExponent_packComponents,
    unpackSign_packComponents, Sign.ofBitVec_toBitVec]
  split_ifs <;> simp [neg]

theorem unpack_packComponents_positive (spec : Format) (s : Sign) (E : BitVec spec.exponentBits)
    (M : BitVec spec.mantissaBitsWithoutImplicit) :
    unpack spec (packComponents spec .positive E M) =
      (unpack spec (packComponents spec s E M)).abs := by
  simp only [unpack, unpackMantissa_packComponents, unpackExponent_packComponents,
    unpackSign_packComponents, Sign.ofBitVec_toBitVec]
  split_ifs <;> simp [abs]

theorem unpack_pack_neg (spec : Format) (u : UnpackedFloat) :
    unpack spec (pack spec u.neg) = (unpack spec (pack spec u)).neg := by
  cases u with
  | notANumber => simp [neg.eq_1, pack, unpack_packedNaN, neg]
  | infinity s => simp only [neg.eq_2, pack, packedInfinity, unpack_packComponents_neg]
  | zero s => simp only [neg.eq_3, pack, packedZero, unpack_packComponents_neg]
  | finite s m e hm =>
    simp only [neg.eq_4, pack]
    split_ifs <;> simp only [packedInfinity, unpack_packComponents_neg]

theorem unpack_pack_abs (spec : Format) (u : UnpackedFloat) :
    unpack spec (pack spec u.abs) = (unpack spec (pack spec u)).abs := by
  cases u with
  | notANumber => simp [abs.eq_1, pack, unpack_packedNaN, abs]
  | infinity s => simp only [abs.eq_2, pack, packedInfinity, ← unpack_packComponents_positive]
  | zero s => simp only [abs.eq_3, pack, packedZero, ← unpack_packComponents_positive]
  | finite s m e hm =>
    simp only [abs.eq_4, pack]
    split_ifs <;> simp only [packedInfinity, ← unpack_packComponents_positive]

/-! ## Unpacking is undone by packing -/

/-- Unpacking after packing gives back what any bits unpack to. -/
theorem unpack_pack_unpack (spec : Format) (he : 2 ≤ spec.exponentBits)
    (b : BitVec spec.numBits) : unpack spec (pack spec (unpack spec b)) = unpack spec b := by
  rw [pack_unpack b he]
  split
  · -- NaN bits unpack to NaN, and so does the canonical NaN packed for them
    rename_i hnan
    simp only [isNaNBits, decide_eq_true_eq] at hnan
    rw [unpack_packedNaN]
    simp [unpack, hnan.1, hnan.2]
  · rfl

/-! ## Subtraction -/

theorem roundWithAccuracy_abs (spec : Format) (s : Sign) (m : Nat) (e : Int) (a : Accuracy) :
    (roundWithAccuracy spec s m e a).abs = (roundWithAccuracy spec .positive m e a).abs := by
  unfold roundWithAccuracy
  cases shiftToTargetExponent spec m e a with
  | mk em e₁ =>
    cases shiftToTargetExponent spec em.roundedMantissa e₁ .exact with
    | mk fm fe =>
      dsimp only
      split <;> rfl

/-- Rounding is symmetric about zero: a mantissa and its negation round to the same
magnitude. -/
theorem normalize_neg_abs (spec : Format) (x e : Int) (z : Sign) :
    (normalize spec (-x) e z).abs = (normalize spec x e z).abs := by
  unfold normalize round
  rcases Int.lt_trichotomy x 0 with h | rfl | h
  · have h1 : compare x 0 = .lt := Int.compare_eq_lt.2 h
    have h2 : compare (-x) 0 = .gt := Int.compare_eq_gt.2 (by omega)
    simp only [h1, h2]
    exact (roundWithAccuracy_abs ..).symm
  · simp [abs]
  · have h1 : compare x 0 = .gt := Int.compare_eq_gt.2 h
    have h2 : compare (-x) 0 = .lt := Int.compare_eq_lt.2 (by omega)
    simp only [h1, h2, Int.neg_neg]
    exact roundWithAccuracy_abs ..

theorem sub_abs_comm (spec : Format) (u v : UnpackedFloat) :
    (sub spec u v).abs = (sub spec v u).abs := by
  cases u with
  | notANumber => cases v <;> rfl
  | infinity s₁ =>
    cases v with
    | infinity s₂ => cases s₁ <;> cases s₂ <;> rfl
    | _ => rfl
  | zero s₁ =>
    cases v with
    | zero s₂ => cases s₁ <;> cases s₂ <;> rfl
    | _ => rfl
  | finite s₁ m₁ e₁ h₁ =>
    cases v with
    | finite s₂ m₂ e₂ h₂ =>
      -- both align to the smaller exponent; the mantissa differences are negations
      simp only [sub]
      rw [Int.min_comm e₂ e₁, ← Int.neg_sub, normalize_neg_abs]
    | _ => rfl

/-! ## Comparison -/

theorem compare_eq_comm (u v : UnpackedFloat) :
    u.compare v = some .eq ↔ v.compare u = some .eq := by
  rcases u with s₁ | _ | s₁ | ⟨s₁, m₁, e₁, h₁⟩ <;> rcases v with s₂ | _ | s₂ | ⟨s₂, m₂, e₂, h₂⟩ <;>
    (try cases s₁) <;> (try cases s₂) <;>
    simp [UnpackedFloat.compare] <;>
    omega

theorem compare_notANumber_right (u : UnpackedFloat) : u.compare .notANumber = none := by
  cases u <;> rfl

/-- Only a zero (or a NaN, which equals nothing) equals its negation. -/
theorem compare_neg_self (u : UnpackedFloat) (hz : ∀ s, u ≠ .zero s) :
    u.neg.compare u ≠ some .eq := by
  rcases u with s | _ | s | ⟨s, m, e, h⟩
  · cases s <;> simp [neg, UnpackedFloat.compare]
  · simp [neg, UnpackedFloat.compare]
  · exact absurd rfl (hz s)
  · cases s <;> simp [neg, UnpackedFloat.compare]

theorem eq_zero_of_compare_zero {u : UnpackedFloat} {s : Sign}
    (h : u.compare (.zero s) = some .eq) : ∃ s', u = .zero s' := by
  rcases u with s' | _ | s' | ⟨s', m, e, hm⟩
  · cases s' <;> simp [UnpackedFloat.compare] at h
  · simp [UnpackedFloat.compare] at h
  · exact ⟨s', rfl⟩
  · cases s' <;> simp [UnpackedFloat.compare] at h

end Float.Model.UnpackedFloat

open Float.Model Float.Model.UnpackedFloat

/-! ## Doubles -/

namespace Float

theorem toModel_unpack_ofModel_pack (u : UnpackedFloat) :
    (Float.ofModel (Float.Model.pack u)).toModel.unpack =
      UnpackedFloat.unpack Format.binary64 (UnpackedFloat.pack Format.binary64 u) := by
  simp [Float.Model.unpack, Float.Model.pack]

theorem abs_sub_comm (a b : Float) : (a - b).abs = (b - a).abs := by
  show Float.ofModel (Float.Model.pack (Float.ofModel (Float.Model.pack
      (UnpackedFloat.sub Format.binary64 a.toModel.unpack b.toModel.unpack))).toModel.unpack.abs) =
    Float.ofModel (Float.Model.pack (Float.ofModel (Float.Model.pack
      (UnpackedFloat.sub Format.binary64 b.toModel.unpack a.toModel.unpack))).toModel.unpack.abs)
  rw [toModel_unpack_ofModel_pack, toModel_unpack_ofModel_pack, ← unpack_pack_abs,
    ← unpack_pack_abs, sub_abs_comm]

theorem beq_eq_compare (a b : Float) :
    (a == b) = (a.toModel.unpack.compare b.toModel.unpack == some .eq) := rfl

theorem beq_comm (a b : Float) : (a == b) = (b == a) := by
  rw [beq_eq_compare, beq_eq_compare, Bool.eq_iff_iff, beq_iff_eq, beq_iff_eq, compare_eq_comm]

theorem toModel_unpack_neg (b : Float) : (-b).toModel.unpack = b.toModel.unpack.neg := by
  show (Float.ofModel (Float.Model.pack b.toModel.unpack.neg)).toModel.unpack = _
  rw [toModel_unpack_ofModel_pack, unpack_pack_neg]
  exact congrArg UnpackedFloat.neg (unpack_pack_unpack Format.binary64 (by decide) _)

/-- A value equal to `b`, replaced by one when `b` is zero and by `-b` otherwise, differs
from `b`. -/
theorem beq_nudge_eq_false (a b : Float) (h : (a == b) = true) :
    ((if b == 0.0 then 1.0 else -b) == b) = false := by
  -- `b` equals something, so it is no NaN
  have hnan : b.toModel.unpack ≠ .notANumber := by
    intro hb
    rw [beq_eq_compare, hb, compare_notANumber_right] at h
    simp at h
  split
  · rename_i hz
    rw [beq_eq_compare, show (0.0 : Float).toModel.unpack = .zero .positive from rfl,
      beq_iff_eq] at hz
    obtain ⟨s, hs⟩ := eq_zero_of_compare_zero hz
    rw [beq_eq_compare, hs, show (1.0 : Float).toModel.unpack = .finite .positive (2 ^ 52) (-52)
      (by decide) from rfl]
    rfl
  · rename_i hz
    have hzero : ∀ s, b.toModel.unpack ≠ .zero s := by
      intro s hs
      rw [beq_eq_compare, hs, show (0.0 : Float).toModel.unpack = .zero .positive from rfl] at hz
      simp [UnpackedFloat.compare] at hz
    rw [beq_eq_compare, toModel_unpack_neg]
    simpa using compare_neg_self _ hzero

end Float

/-! ## Singles -/

namespace Float32

theorem toModel_unpack_ofModel_pack (u : UnpackedFloat) :
    (Float32.ofModel (Float32.Model.pack u)).toModel.unpack =
      UnpackedFloat.unpack Format.binary32 (UnpackedFloat.pack Format.binary32 u) := by
  simp [Float32.Model.unpack, Float32.Model.pack]

theorem beq_eq_compare (a b : Float32) :
    (a == b) = (a.toModel.unpack.compare b.toModel.unpack == some .eq) := rfl

theorem beq_comm (a b : Float32) : (a == b) = (b == a) := by
  rw [beq_eq_compare, beq_eq_compare, Bool.eq_iff_iff, beq_iff_eq, beq_iff_eq, compare_eq_comm]

theorem toModel_unpack_neg (b : Float32) : (-b).toModel.unpack = b.toModel.unpack.neg := by
  show (Float32.ofModel (Float32.Model.pack b.toModel.unpack.neg)).toModel.unpack = _
  rw [toModel_unpack_ofModel_pack, unpack_pack_neg]
  exact congrArg UnpackedFloat.neg (unpack_pack_unpack Format.binary32 (by decide) _)

theorem beq_nudge_eq_false (a b : Float32) (h : (a == b) = true) :
    ((if b == 0.0 then 1.0 else -b) == b) = false := by
  have hnan : b.toModel.unpack ≠ .notANumber := by
    intro hb
    rw [beq_eq_compare, hb, compare_notANumber_right] at h
    simp at h
  split
  · rename_i hz
    rw [beq_eq_compare, show (0.0 : Float32).toModel.unpack = .zero .positive from rfl,
      beq_iff_eq] at hz
    obtain ⟨s, hs⟩ := eq_zero_of_compare_zero hz
    rw [beq_eq_compare, hs, show (1.0 : Float32).toModel.unpack = .finite .positive (2 ^ 23) (-23)
      (by decide) from rfl]
    rfl
  · rename_i hz
    have hzero : ∀ s, b.toModel.unpack ≠ .zero s := by
      intro s hs
      rw [beq_eq_compare, hs, show (0.0 : Float32).toModel.unpack = .zero .positive from rfl] at hz
      simp [UnpackedFloat.compare] at hz
    rw [beq_eq_compare, toModel_unpack_neg]
    simpa using compare_neg_self _ hzero

end Float32
