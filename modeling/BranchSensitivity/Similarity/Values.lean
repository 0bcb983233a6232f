import BranchSensitivity.Similarity.EditDistance
import BranchSensitivity.Value.Basic
import BranchSensitivity.Config

/-!
# Similar values

A head value is similar to a tail value when neither is null and either they are equal, or both
are numeric and their integer views or their float views differ by at most the tolerance, or
their texts have a similarity ratio of at least the threshold or are equal.

    (Settings.ofConfig c).similar h t = (Settings.ofConfig c).similar t h
-/

namespace BranchSensitivity.Similarity

/-- The threshold for texts and the tolerance for numbers. -/
structure Settings where
  threshold : Float
  tolerance : Float
deriving Inhabited

namespace Settings

/-- The settings of a configuration. -/
def ofConfig (c : Config) : Settings := ⟨c.similarityThreshold, c.numericTolerance⟩

/-- The settings of the default configuration. -/
def default : Settings := ofConfig {}

/-- The integer views differ by at most the tolerance. -/
def intClose (s : Settings) (h t : Value) : Bool :=
  match h.asInteger, t.asInteger with
  | some a, some b => Value.floatOfInt (a - b).natAbs ≤ s.tolerance
  | _, _ => false

/-- The float views differ by at most the tolerance. -/
def floatClose (s : Settings) (h t : Value) : Bool :=
  match h.asFloat, t.asFloat with
  | some a, some b => (a - b).abs ≤ s.tolerance
  | _, _ => false

/-- Whether `tail` approximately preserves `head`. -/
def similar (s : Settings) (h t : Value) : Bool :=
  if h.isNull || t.isNull then false
  else if h == t then true
  else if h.isNumeric && t.isNumeric then s.intClose h t || s.floatClose h t
  else
    let a := h.display
    let b := t.display
    ratio a b ≥ s.threshold || a == b

end Settings

end BranchSensitivity.Similarity
