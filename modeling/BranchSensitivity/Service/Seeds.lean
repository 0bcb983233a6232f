import BranchSensitivity.Service.TestCases
import BranchSensitivity.Seed

/-!
# Answers about the template factory and seed building

A factory is read from its `templates` (each a list of builder operations) and whether it
randomizes primitives. Seed budgets above 200 ms are refused, so that every answer stays quick.
-/

namespace BranchSensitivity.Service

open BranchSensitivity.Random

/-- The largest seed budget a request may ask for, in milliseconds. -/
def maxBudgetMs : Nat := 200

/-- The wall clock of the driver's runs. How long a build takes is never observable, only whether
it ends in a seed or the time-out. So when the budget is zero, or no template of the factory can
give an acceptable seed, each reading is one budget after the one before and every build times out
at its first attempt; otherwise the clock stands still, for more attempts than the builds need. -/
def serviceClock (budgetMs : Nat) (f : TemplateFactory) (target : Option String) : List Nat :=
  if budgetMs == 0 || !f.templates.any (fun t => !t.isEmpty && t.callsTarget target) then
    (List.range 1000).map (· * budgetMs)
  else List.replicate 100000 0

/-- A template factory from its templates. -/
def readFactory (j : Json) : Decode TemplateFactory := do
  return { templates := ← listOf j "templates" readTest,
           randomizePrimitives := ← optD j "randomize_primitives" asBool false }

namespace Answer

/-- An operation on a factory and its test case. -/
inductive FactoryOp where
  | insert (position : Nat)
  | changeNull (position : Nat)
  | reset

/-- A factory operation from its document. -/
def readFactoryOp (j : Json) : Decode FactoryOp := do
  match ← req j "op" asStr with
  | "insert" => return .insert (← optD j "position" asNat 0)
  | "change_null" => return .changeNull (← req j "position" asNat)
  | "reset" => return .reset
  | other => refuse s!"unknown factory op {other}"

/-- Run one factory operation: its result, the test case and the factory after it. -/
def FactoryOp.run (f : TemplateFactory) (t : TestCase) :
    FactoryOp → Draw (Json × TestCase × TemplateFactory)
  | .insert p => do
    let (r, t, f) ← f.insert t p
    return (Json.ofOption Json.ofNat r, t, f)
  | .changeNull p => do
    let (ok, t) ← TemplateFactory.changeNull t p
    return (.bool ok, t, f)
  | .reset => pure (.null, {}, f)

/-- A factory driven operation by operation on one test case, with one random source. -/
def factory (j : Json) : Decode Json := do
  let f ← readFactory j
  let seed ← optD j "seed" asNat 0
  let t ← optD j "test" asTest {}
  let ops ← listOf j "ops" readFactoryOp
  let run : Draw (List Json) := do
    let (steps, _) ← ops.foldlM (fun (acc, t, f) op => do
        let (r, t, f) ← op.run f t
        let step := Json.obj [("result", r), ("insertions", Json.ofNat f.insertions),
          ("test", testJson t)]
        return (acc ++ [step], t, f))
      (([] : List Json), t, f)
    return steps
  return .obj [("steps", .arr (run.run (Rng.ofSeed seed.toUInt64)).1)]

/-- A seed built by the factory, or the time-out. -/
def seed (j : Json) : Decode Json := do
  let f ← readFactory j
  let seed ← optD j "seed" asNat 0
  let budget ← optD j "budget_ms" asNat 50
  if budget > maxBudgetMs then refuse "budget_ms above 200 is refused by the driver"
  let b : SeedBuilder := ⟨budget, ← optD j "allow_null" asBool false⟩
  let target ← opt j "target" asStr
  let (result, f, _) :=
    ((b.build TemplateFactory.ops target (serviceClock budget f target) f).run (Rng.ofSeed seed.toUInt64)).1
  let t ← ofEngine result
  return .obj [("test", testJson t), ("insertions", Json.ofNat f.insertions),
    ("budget_ms", Json.ofNat budget)]

end Answer

end BranchSensitivity.Service
