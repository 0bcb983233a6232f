import BranchSensitivity.Json.Reader
import BranchSensitivity.Json.Writer
import BranchSensitivity.Service.Primitives
import BranchSensitivity.Service.Tests
import BranchSensitivity.Service.Reports
import BranchSensitivity.Service.Scenario

/-!
# Answering a request line

A request is one JSON object whose `op` member names the question. The answer is one JSON line:
the result, or the failure as `{"error", "message"}`; a line that is no JSON document is refused
with the reader's fault and its place.
-/

namespace BranchSensitivity.Service

/-- The answer to a request document. -/
def answer (j : Json) : Decode Json := do
  match ← req j "op" asStr with
  | "convert" => Answer.convert j
  | "branch" => Answer.branch j
  | "ids" => Answer.ids j
  | "value" => Answer.value j
  | "type_name" => Answer.typeName j
  | "instruction" => Answer.instruction j
  | "root" => Answer.root j
  | "similarity" => Answer.similarity j
  | "similar" => Answer.similar j
  | "config_struct" => Answer.configStruct j
  | "config" => Answer.config j
  | "mutate" => Answer.mutate j
  | "test_case" => Answer.testCase j
  | "chromosome" => Answer.chromosome j
  | "buffer" => Answer.buffer j
  | "resolve" => Answer.resolve j
  | "inputs" => Answer.inputs j
  | "paths" => Answer.paths j
  | "synthesize" => Answer.synthesize j
  | "preservance" => Answer.preservance j
  | "factory" => Answer.factory j
  | "seed" => Answer.seed j
  | "observe" => Answer.observe j
  | "analyze" => Answer.analyze j
  | "fixture" => Answer.fixture j
  | "fixture_parts" => Answer.fixtureParts j
  | other => refuse s!"unknown op {other}"

/-- The answer line to a request line. -/
def respond (line : String) : String :=
  match Json.parse line with
  | .error e => Json.render (Failure.badInput ("invalid JSON: " ++ e.message)).toJson
  | .ok j => match answer j with
    | .ok a => Json.render a
    | .error f => Json.render f.toJson

end BranchSensitivity.Service
