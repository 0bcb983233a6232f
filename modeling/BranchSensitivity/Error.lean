/-!
# Errors of an analysis

Each error names its cause; `AnalysisError.message` gives its text. A `Fault` is no error the
analysis returns but a failure at run time, where the engine would stop.
-/

namespace BranchSensitivity

/-- Why an analysis step failed. -/
inductive AnalysisError where
  /-- No valid seed test was built within the budget, in milliseconds. -/
  | seedTimeout (budgetMs : Nat)
  /-- A root variable could not be mapped to a statement of the seed. -/
  | resolutionFailure (reason : String)
  /-- The synthesizer failed to build a difficult object. -/
  | constructionFailure (reason : String)
  /-- A class of an observation site could not be loaded. -/
  | classLoadFailure (className reason : String)
  /-- No fitness function for the goal is attached to the chromosome. -/
  | missingFitness (goal : String)
  /-- A configuration value is out of its range. -/
  | invalidConfiguration (reason : String)
  /-- A document could not be read. -/
  | serialization
deriving Repr, DecidableEq

namespace AnalysisError

/-- The text of an error. -/
def message : AnalysisError → String
  | .seedTimeout ms => s!"seed construction timed out after {ms}ms"
  | .resolutionFailure r => "resolution failure: " ++ r
  | .constructionFailure r => "construction failure: " ++ r
  | .classLoadFailure c r => "class load failure for " ++ c ++ ": " ++ r
  | .missingFitness g => "missing fitness for " ++ g
  | .invalidConfiguration r => "configuration error: " ++ r
  | .serialization => "serialization error"

/-- The name of the kind of an error. -/
def kind : AnalysisError → String
  | .seedTimeout _ => "SeedTimeout"
  | .resolutionFailure _ => "ResolutionFailure"
  | .constructionFailure _ => "ConstructionFailure"
  | .classLoadFailure _ _ => "ClassLoadFailure"
  | .missingFitness _ => "MissingFitness"
  | .invalidConfiguration _ => "InvalidConfiguration"
  | .serialization => "Serialization"

end AnalysisError

/-- A failure at run time, where the engine stops: a draw from a range with no values, a draw of
a double from a range whose width is not finite, a look-up past the end of a list, a count taken
one below zero, or an integer that leaves its word. -/
inductive Fault where
  | emptyRange
  | rangeOverflow
  | indexOutOfRange
  | lengthUnderflow
  | overflow
deriving Repr, DecidableEq

end BranchSensitivity
