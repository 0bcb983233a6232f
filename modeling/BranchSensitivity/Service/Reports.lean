import BranchSensitivity.Service.Dependencies
import BranchSensitivity.Report.Stored

/-!
# Answers about preservation reports

A report is summarized by its counts, ratios, roots, sites, resolved heads and trials, whether it
reaches each of a list of least ratios, its one-line text (the analysis identity masked as `<id>`),
and on request its stored document.
-/

namespace BranchSensitivity.Service

/-- The masked identity that stands before a report's one-line text. -/
def maskedId : String := "<id>"

/-- The summary of a report for a list of least ratios. -/
def reportJson (minRatios : List Float) (stored : Bool) (r : Report) : Json :=
  let body := [("branch", Json.ofOption Json.ofNat r.branch), ("len", Json.ofNat r.len),
    ("is_empty", .bool r.isEmpty), ("group_count", Json.ofNat r.groupCount),
    ("sensitivity_count", Json.ofNat r.sensitivityCount),
    ("value_preserving_count", Json.ofNat r.valuePreservingCount),
    ("sensitivity_ratio", floatJson r.sensitivityRatio),
    ("value_preservation_ratio", floatJson r.valuePreservationRatio),
    ("roots", strsJson (r.roots.map (·.key))), ("sites", strsJson (r.sites.map (·.id))),
    ("resolved_heads", .arr (r.resolvedHeads.map fun h => .obj [("root", .str h.root),
      ("input", resolvedJson (.ok h.input)), ("head_positions", natsJson h.headPositions)])),
    ("records", .arr (r.records.map fun rec => .obj [("trial", Json.ofNat rec.trial.toNat),
      ("group", Json.ofNat rec.group.toNat), ("inputs", inputsJson rec.inputs),
      ("observations", .arr (rec.observations.map fun (k, vs) => .arr [.str k, .arr (vs.map valueJson)])),
      ("value_preserving", .bool (rec.isValuePreserving r.similarity))])),
    ("value_preserving_at", .arr (minRatios.map fun m => .bool (r.isValuePreserving m))),
    ("sensitivity_preserving_at", .arr (minRatios.map fun m => .bool (r.isSensitivityPreserving m))),
    ("display", .str (r.summary maskedId))]
  .obj (if stored then body ++ [("json", Stored.report r)] else body)

/-- Similarity settings from `threshold` and `tolerance`; the defaults when both are missing. -/
def readSimilarity (j : Json) : Decode Similarity.Settings := do
  let threshold ← opt j "threshold" asFloat
  let tolerance ← opt j "tolerance" asFloat
  return match threshold, tolerance with
    | none, none => Similarity.Settings.default
    | t, u => ⟨t.getD 0.8, u.getD 10.0⟩

/-- One trial of a request: inputs by position and identity, observations by site. -/
def readRecord (index : Nat) (j : Json) : Decode ObservationRecord := do
  let primitives ← listOf j "variables" fun e => match e with
    | .arr [p, v] => do return (← asNat "pos" p, ← readValue v)
    | _ => refuse "variable entry [pos, value]"
  let constants ← listOf j "constants" fun e => match e with
    | .arr [k, v] => do return (← asStr "id" k, ← readValue v)
    | _ => refuse "constant entry [id, value]"
  let observations ← listOf j "observations" fun e => match e with
    | .arr [k, vs] => do
      let vs ← match vs with
        | .arr vs => pure vs
        | _ => refuse "observation values"
      return (← asStr "site" k, ← vs.mapM readValue)
    | _ => refuse "observation entry [site, values]"
  let inputs : MethodInputs :=
    { primitives := primitives.foldl (fun acc (p, v) => insertSorted p v acc) []
      constants := constants.foldl (fun acc (k, v) => insertSorted k v acc) [] }
  let group ← optD j "group" asU64 0
  let trial ← optD j "trial" asU64 index.toUInt64
  return { trial, group, inputs,
           observations := observations.foldl (fun acc (k, vs) => insertSorted k vs acc) [] }

/-- A report of a request: its branch (an empty report when it has none), roots, sites and
trials. -/
def readReport (s : Similarity.Settings) (j : Json) : Decode Report := do
  let base := match ← opt j "branch" asBranchId with
    | some b => { Report.empty (some b) s with }
    | none => Report.empty none s
  let roots ← listOf j "roots" (readRoot 200)
  let sites ← listOf j "sites" readInstruction
  let records ← listOf j "records" pure
  let records ← records.zipIdx.mapM fun (r, i) => readRecord i r
  return { base with roots, sites, records }

namespace Answer

/-- Reports merged one after another into the first, summarized after each merge. -/
def preservance (j : Json) : Decode Json := do
  let s ← readSimilarity j
  match ← listOf j "reports" pure with
  | [] => refuse "reports must not be empty"
  | first :: rest =>
    let first ← readReport s first
    -- how summaries are written is read when the first one is
    let minRatios ← listOf j "min_ratios" (asFloat "min_ratio")
    let stored ← optD j "json" asBool false
    let rest ← rest.mapM (readReport s)
    let steps := rest.foldl (fun (acc, r) next => let r := r.merge next; (acc ++ [r], r)) ([first], first)
    return .obj [("steps", .arr (steps.1.map (reportJson minRatios stored)))]

end Answer

end BranchSensitivity.Service
