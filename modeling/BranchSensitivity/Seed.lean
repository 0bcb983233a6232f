import BranchSensitivity.Collaborator.Factory
import BranchSensitivity.Config
import BranchSensitivity.Error

/-!
# Building seed tests

A seed is a non-empty test case built by a test factory into an empty test case; unless null
inputs are allowed, every null statement of it is replaced and none may remain. A seed for a
target must also end in a call to the target method. Attempts are repeated until one succeeds.

The builder works against any factory, given by its two operations over a state of its own, and
within a time budget, against the wall clock. The clock is the list of its readings still to come,
in milliseconds: a build reads it once when it starts, and again before each attempt, and gives
up with a time-out once the time elapsed since the start reaches the budget. A clock whose
readings are used up stands for a budget that is spent. A build returns the readings it left.
-/

namespace BranchSensitivity

open BranchSensitivity.Random

/-- What the seed builder asks of a test factory, over a factory state `φ`. Either operation may
change the test case, the factory state and the random source. -/
structure FactoryOps (φ : Type) where
  /-- Insert statements into a test case at a position: the position of the statement
  inserted, or `none` when nothing could be inserted. -/
  insert : φ → TestCase → Nat → Draw (Option Nat × TestCase × φ)
  /-- Replace the null statement at a position by a concretely typed one; `false` when no
  replacement could be built. -/
  changeNull : φ → TestCase → Nat → Draw (Bool × TestCase × φ)

/-- The template factory; replacing a null leaves the factory as it is. -/
def TemplateFactory.ops : FactoryOps TemplateFactory where
  insert := TemplateFactory.insert
  changeNull f t p := do
    let (ok, t) ← TemplateFactory.changeNull t p
    return (ok, t, f)

/-- Builds seed test cases through a factory. -/
structure SeedBuilder where
  budgetMs : Nat
  allowNullInputs : Bool
deriving Inhabited

namespace SeedBuilder

/-- The builder of a configuration. -/
def ofConfig (c : Config) : SeedBuilder := ⟨c.seedTimeoutMs.toNat, c.allowNullInputs⟩

section Factory

variable {φ : Type} (F : FactoryOps φ)

/-- Replace the null statements at the positions listed, stopping at the first failure. -/
def replaceNullsAt : φ → TestCase → List Nat → Draw (Bool × TestCase × φ)
  | f, t, [] => pure (true, t, f)
  | f, t, p :: ps => do
    let (ok, t, f) ← F.changeNull f t p
    if ok then replaceNullsAt f t ps else pure (false, t, f)

/-- Replace every null statement; `false` when one could not be replaced or one remains. -/
def replaceNulls (f : φ) (t : TestCase) : Draw (Bool × TestCase × φ) := do
  let nulls := (t.statements.zipIdx.filter (·.1.isNull)).map (·.2)
  let (ok, t, f) ← replaceNullsAt F f t nulls
  return (ok && !t.statements.any (·.isNull), t, f)

/-- One attempt: a test case, or `none` when it is not acceptable. -/
def attempt (b : SeedBuilder) (target : Option String) (f : φ) :
    Draw (Option TestCase × φ) := do
  let (pos, t, f) ← F.insert f {} 0
  if pos.isNone || t.isEmpty then return (none, f)
  let (ok, t, f) ← if b.allowNullInputs then pure (true, t, f) else replaceNulls F f t
  return (if ok && t.callsTarget target then some t else none, f)

/-- Attempt while the clock, read before each attempt, shows less than the budget elapsed since
`start`: a seed, ending in a call to `target` when one is given, or the time-out; with the
readings left. -/
def buildUntil (b : SeedBuilder) (target : Option String) (start : Nat) :
    List Nat → φ → Draw (Except AnalysisError TestCase × φ × List Nat)
  | [], f => pure (.error (.seedTimeout b.budgetMs), f, [])
  | now :: later, f =>
    if b.budgetMs ≤ now - start then pure (.error (.seedTimeout b.budgetMs), f, later)
    else do
      match ← b.attempt F target f with
      | (some t, f) => pure (.ok t, f, later)
      | (none, f) => b.buildUntil target start later f

/-- Start the clock and build: a seed, ending in a call to `target` when one is given, or the
time-out; with the readings left. -/
def build (b : SeedBuilder) (target : Option String) :
    List Nat → φ → Draw (Except AnalysisError TestCase × φ × List Nat)
  | [], f => pure (.error (.seedTimeout b.budgetMs), f, [])
  | start :: clock, f => b.buildUntil F target start clock f

end Factory

end SeedBuilder

end BranchSensitivity
