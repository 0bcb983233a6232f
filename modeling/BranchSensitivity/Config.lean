import BranchSensitivity.Error
import BranchSensitivity.Json.Reader
import BranchSensitivity.Decimal.Layout

/-!
# Configuration of the analyzer

A configuration names the target method, the number of trials per analysis, the similarity
threshold and numeric tolerance, the seed budget, whether null inputs are kept, the mutation
strategy with its bounds, and the random seed.

`Config.validate` accepts a configuration when there is at least one trial, the threshold lies
in `[0, 1]`, the tolerance is not negative, the budget is positive and both mutation bounds are
positive; the first failed check is reported.

`Config.ofJson` reads a configuration from a document: either an object, whose known members
override the defaults (a known member given twice is refused, unknown members are ignored), or an
array, whose items give the members in their order of declaration. `Config.parse` reads a text
the same way, and skips the unknown members of an object unread, so they need only be well formed
(a lone surrogate escape in them is let through). Counts and the seed are
non-negative integers below `2^64`, bounds are integers in the signed 64-bit range, the threshold
and tolerance any numbers, and the strategy one of `"delta"`, `"random_replace"`, `"mixed"`.
-/

namespace BranchSensitivity

/-- How a primitive input is changed by one mutation. -/
inductive MutationStrategy where
  /-- Add a small non-zero delta, flip a boolean, edit one character. -/
  | delta
  /-- Replace with a fresh random value. -/
  | randomReplace
  /-- Random replacement one time in three, delta otherwise. -/
  | mixed
deriving Repr, DecidableEq, Inhabited

namespace MutationStrategy

/-- The name of a strategy in documents. -/
def name : MutationStrategy → String
  | .delta => "delta"
  | .randomReplace => "random_replace"
  | .mixed => "mixed"

/-- The strategy of a name. -/
def ofName? : String → Option MutationStrategy
  | "delta" => some .delta
  | "random_replace" => some .randomReplace
  | "mixed" => some .mixed
  | _ => none

end MutationStrategy

/-- Configuration of the analyzer. -/
structure Config where
  /-- Signature of the target method, name and descriptor, e.g. `targetM(I)V`. -/
  targetMethod : String := ""
  /-- Trials per analysis. -/
  trials : UInt64 := 10
  /-- Least similarity ratio for two non-numeric values to count as similar. -/
  similarityThreshold : Float := 0.8
  /-- Largest numeric difference still counted as similar. -/
  numericTolerance : Float := 10.0
  /-- Budget for building a seed test, in milliseconds. -/
  seedTimeoutMs : UInt64 := 3000
  /-- Keep null statements in seeds. -/
  allowNullInputs : Bool := false
  strategy : MutationStrategy := .mixed
  /-- Largest magnitude of a delta mutation. -/
  maxDelta : Int64 := 20
  /-- Bound of random integer replacement. -/
  maxInt : Int64 := 2048
  /-- Seed of the random source. -/
  randomSeed : Option UInt64 := none
deriving Inhabited

namespace Config

/-- The default configuration for a target method. -/
def forTarget (target : String) : Config := { targetMethod := target }

/-- The first range check that the configuration fails. -/
def validate (c : Config) : Except AnalysisError Unit :=
  if c.trials == 0 then
    .error (.invalidConfiguration "dynamic_sensitivity_threshold must be at least 1")
  else if !(0.0 ≤ c.similarityThreshold && c.similarityThreshold ≤ 1.0) then
    .error (.invalidConfiguration
      s!"value_similarity_threshold {Decimal.plainText c.similarityThreshold} outside 0.0..=1.0")
  else if c.numericTolerance < 0.0 then
    .error (.invalidConfiguration
      s!"numeric_tolerance {Decimal.plainText c.numericTolerance} is negative")
  else if c.seedTimeoutMs == 0 then
    .error (.invalidConfiguration "seed_timeout_ms must be positive")
  else if c.maxDelta ≤ 0 || c.maxInt ≤ 0 then
    .error (.invalidConfiguration "max_delta and max_int must be positive")
  else .ok ()

/-! ## Reading -/

/-- The largest signed 64-bit integer. -/
def maxI64 : Int := 0x7FFFFFFFFFFFFFFF

/-- A non-negative integer below `2^64`. -/
def readCount : Json → Option UInt64
  | .num (.nat n) => some n.toUInt64
  | _ => none

/-- An integer in the signed 64-bit range. -/
def readBound : Json → Option Int64
  | .num (.nat n) => if (n : Int) ≤ maxI64 then some (Int64.ofNat n) else none
  | .num (.neg n) => some (Int64.ofInt n)
  | _ => none

/-- Any number, as a double. -/
def readFloat (j : Json) : Option Float := j.asFloat?

/-- A strategy: its name, or an object holding its name with a null. -/
def readStrategy : Json → Option MutationStrategy
  | .str s => MutationStrategy.ofName? s
  | .obj [(s, .null)] => MutationStrategy.ofName? s
  | _ => none

/-- The names of the members, in their order of declaration. -/
def memberNames : List String :=
  ["target_method", "dynamic_sensitivity_threshold", "value_similarity_threshold",
    "numeric_tolerance", "seed_timeout_ms", "allow_null_inputs", "mutation_strategy",
    "max_delta", "max_int", "random_seed"]

/-- Set one member from a document, if the document has the member's type. -/
def setMember (c : Config) (key : String) (j : Json) : Option Config :=
  match key with
  | "target_method" => j.asString?.map fun v => { c with targetMethod := v }
  | "dynamic_sensitivity_threshold" => (readCount j).map fun v => { c with trials := v }
  | "value_similarity_threshold" => (readFloat j).map fun v => { c with similarityThreshold := v }
  | "numeric_tolerance" => (readFloat j).map fun v => { c with numericTolerance := v }
  | "seed_timeout_ms" => (readCount j).map fun v => { c with seedTimeoutMs := v }
  | "allow_null_inputs" => j.asBool?.map fun v => { c with allowNullInputs := v }
  | "mutation_strategy" => (readStrategy j).map fun v => { c with strategy := v }
  | "max_delta" => (readBound j).map fun v => { c with maxDelta := v }
  | "max_int" => (readBound j).map fun v => { c with maxInt := v }
  | "random_seed" =>
    match j with
    | .null => some { c with randomSeed := none }
    | _ => (readCount j).map fun v => { c with randomSeed := some v }
  | _ => some c

/-- Set the members of an object in order; `seen` holds the known members set so far. -/
def setMembers (c : Config) (seen : List String) : List (String × Json) → Option Config
  | [] => some c
  | (k, j) :: rest =>
    if memberNames.contains k then
      if seen.contains k then none
      else match setMember c k j with
        | some c' => setMembers c' (k :: seen) rest
        | none => none
    else setMembers c seen rest

/-- Set the members from the items of an array, in order of declaration. -/
def setItems (c : Config) : List String → List Json → Option Config
  | _, [] => some c
  | k :: ks, j :: js =>
    match setMember c k j with
    | some c' => setItems c' ks js
    | none => none
  | [], _ :: _ => none

/-- The configuration a document describes, from the defaults. -/
def ofJson : Json → Option Config
  | .obj ms => setMembers {} [] ms
  | .arr items => setItems {} memberNames items
  | _ => none

/-- The members of a configuration object after its opening brace, up to its closing brace:
each known member read by its type and at most once, each unknown member skipped unread. -/
def readMembers : Nat → Config → List String → List Char → Option (Config × List Char)
  | 0, _, _, _ => none
  | fuel + 1, c, seen, cs =>
    match Json.skipBlank cs with
    | '"' :: rest => do
      let (key, rest) ← (Json.string rest).toOption
      let rest ← match Json.skipBlank rest with
        | ':' :: rest => some rest
        | _ => none
      let (c, seen, rest) ← if memberNames.contains key then do
          if seen.contains key then none
          let (j, rest) ← (Json.value fuel 127 rest).toOption
          pure (← setMember c key j, key :: seen, rest)
        else do
          pure (c, seen, ← Json.skipValue fuel rest)
      match Json.skipBlank rest with
      | ',' :: rest' => readMembers fuel c seen rest'
      | '}' :: rest' => some (c, rest')
      | _ => none
    | _ => none

/-- Read and check a configuration text: an object read member by member, or any other document
read by `ofJson`, with nothing but blanks after it. -/
def parse (text : String) : Except AnalysisError Config :=
  let cs := text.toList
  let fuel := 2 * cs.length + 2
  let read : Option (Config × List Char) :=
    match Json.skipBlank cs with
    | '{' :: rest =>
      match Json.skipBlank rest with
      | '}' :: rest' => some ({}, rest')
      | rest' => readMembers fuel {} [] rest'
    | _ => (Json.value fuel 128 cs).toOption.bind fun (j, rest) => (ofJson j).map (·, rest)
  match read with
  | some (c, rest) => if (Json.skipBlank rest).isEmpty then do c.validate; return c else .error .serialization
  | none => .error .serialization

end Config

end BranchSensitivity
