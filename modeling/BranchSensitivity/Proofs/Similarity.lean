import BranchSensitivity.Similarity.Values
import BranchSensitivity.Proofs.Levenshtein
import BranchSensitivity.Proofs.FloatLaws

/-!
# Similarity does not depend on which value is the head

For every threshold and tolerance, NaN and the infinities included, and every two values:

    s.similar h t = s.similar t h

Each test that `similar` makes is symmetric on its own: a null on either side, equality of
values (floats compared as numbers), the distance of the integer views, the distance of the
float views (`|a - b| = |b - a|`, since rounding is symmetric about zero), and the similarity
ratio of the texts, which reads only the edit distance (`editDistance_comm`) and the longer
length.
-/

namespace BranchSensitivity

namespace Value

/-- Equality of values is symmetric, floats included: both compare as numbers. -/
theorem beq_comm (a b : Value) : (a == b) = (b == a) := by
  show a.beq b = b.beq a
  cases a <;> cases b <;> simp only [beq]
  case float.float x y => exact Float32.beq_comm x y
  case double.double x y => exact Float.beq_comm x y
  all_goals exact Bool.beq_comm

end Value

namespace Similarity

theorem ratio_comm (a b : String) : ratio a b = ratio b a := by
  unfold ratio
  rw [editDistance_comm, Nat.max_comm]

namespace Settings

theorem intClose_comm (s : Settings) (h t : Value) : s.intClose h t = s.intClose t h := by
  unfold intClose
  cases h.asInteger <;> cases t.asInteger
  case some.some a b =>
    dsimp only
    rw [← Int.neg_sub, Int.natAbs_neg]
  all_goals rfl

theorem floatClose_comm (s : Settings) (h t : Value) : s.floatClose h t = s.floatClose t h := by
  unfold floatClose
  cases h.asFloat <;> cases t.asFloat
  case some.some a b =>
    dsimp only
    rw [Float.abs_sub_comm]
  all_goals rfl

/-- **Similarity is symmetric** for every threshold and tolerance. -/
theorem similar_comm (s : Settings) (h t : Value) : s.similar h t = s.similar t h := by
  unfold similar
  dsimp only
  rw [Bool.or_comm h.isNull, Value.beq_comm h t, Bool.and_comm h.isNumeric, s.intClose_comm,
    s.floatClose_comm, ratio_comm, Bool.beq_comm (a := h.display)]

end Settings

end Similarity

end BranchSensitivity
