import BranchSensitivity.Inputs
import BranchSensitivity.Similarity.Values
import BranchSensitivity.Decimal.Layout

/-!
# Preservation reports

A report gathers the trials of one analysis: for each, its inputs and the values observed at the
sites. Consecutive trials of one group (one probed path) are compared with each other.

* A trial is *value preserving* when some head value (input) is similar to some tail value
  (observed value).
* A trial is *sensitive* when it and the trial before it in its group both have heads and tails,
  none of them null, and both its heads and its tails differ from that trial's. The first trial of
  a group is never sensitive.

The ratios are the counts over the number of trials, zero for an empty report. Merging appends
another report's trials as new groups after this report's groups, and unions the roots, sites
and resolved heads.

Trial and group numbers are 64-bit words, the width of the source's `usize` on the targets it
runs on. The merge shifts the other report's groups by one more than this report's largest group,
and both the offset and the shift wrap around: one more than the largest word
`0xFFFFFFFFFFFFFFFF` is zero, and a shifted group can wrap onto a group already there.
-/

namespace BranchSensitivity

/-- The outcome of one trial. -/
structure ObservationRecord where
  /-- Trial number inside its group. -/
  trial : UInt64
  /-- The probed path the trial belongs to. -/
  group : UInt64
  inputs : MethodInputs
  /-- Captured values by site identity, in identity order. -/
  observations : List (String × List Value)
deriving Inhabited

namespace ObservationRecord

/-- The head values: the inputs' variables, then constants. -/
def heads (r : ObservationRecord) : List Value := r.inputs.headValues

/-- The tail values: every captured value, sites in identity order. -/
def tails (r : ObservationRecord) : List Value := (r.observations.map (·.2)).flatten

/-- Some head value is similar to some tail value. -/
def isValuePreserving (s : Similarity.Settings) (r : ObservationRecord) : Bool :=
  r.heads.any fun h => r.tails.any fun t => s.similar h t

end ObservationRecord

/-- A root variable and the statements that realize it in the seed. -/
structure ResolvedHead where
  root : String
  input : ResolvedInput
  /-- Primitive statements feeding the resolved statement. -/
  headPositions : List Nat
deriving Inhabited

instance : BEq ResolvedHead :=
  ⟨fun a b => a.root == b.root && a.input == b.input && a.headPositions == b.headPositions⟩

/-- Values usable for sensitivity: some, and none of them null. -/
def usable (vs : List Value) : Bool := !vs.isEmpty && !vs.any Value.isNull

/-- The later of two consecutive trials counts as sensitive. -/
def sensitivePair (prev next : ObservationRecord) : Bool :=
  prev.group == next.group && usable prev.heads && usable next.heads &&
    usable prev.tails && usable next.tails &&
    !(next.heads == prev.heads) && !(next.tails == prev.tails)

/-- Number of sensitive trials in a sequence. -/
def sensitiveCount : List ObservationRecord → Nat
  | a :: b :: rest => (if sensitivePair a b then 1 else 0) + sensitiveCount (b :: rest)
  | _ => 0

/-- Number of maximal runs of equal consecutive groups. -/
def runCount : List UInt64 → Nat
  | [] => 0
  | [_] => 1
  | a :: b :: rest => (if a == b then 0 else 1) + runCount (b :: rest)

/-- The trials of one analysis. -/
structure Report where
  branch : Option Nat
  roots : List RootVariable := []
  sites : List Instruction := []
  resolvedHeads : List ResolvedHead := []
  records : List ObservationRecord := []
  similarity : Similarity.Settings
deriving Inhabited

namespace Report

/-- A report without trials. -/
def empty (branch : Option Nat) (s : Similarity.Settings) : Report := { branch, similarity := s }

/-- Number of trials. -/
def len (r : Report) : Nat := r.records.length

/-- Has no trials. -/
def isEmpty (r : Report) : Bool := r.records.isEmpty

/-- Number of runs of consecutive trials of one group. -/
def groupCount (r : Report) : Nat := runCount (r.records.map (·.group))

/-- Number of value preserving trials. -/
def valuePreservingCount (r : Report) : Nat := r.records.countP (·.isValuePreserving r.similarity)

/-- Number of sensitive trials. -/
def sensitivityCount (r : Report) : Nat := sensitiveCount r.records

/-- A count over the number of trials, zero when there are none. -/
def ratio (r : Report) (count : Nat) : Float :=
  if r.records.isEmpty then 0.0 else Float.ofNat count / Float.ofNat r.len

/-- The share of sensitive trials. -/
def sensitivityRatio (r : Report) : Float := r.ratio r.sensitivityCount

/-- The share of value preserving trials. -/
def valuePreservationRatio (r : Report) : Float := r.ratio r.valuePreservingCount

/-- Non-empty, and at least `minRatio` of the trials preserved the value. -/
def isValuePreserving (r : Report) (minRatio : Float) : Bool :=
  !r.isEmpty && r.valuePreservationRatio ≥ minRatio

/-- Non-empty, and at least `minRatio` of the trials were sensitive. -/
def isSensitivityPreserving (r : Report) (minRatio : Float) : Bool :=
  !r.isEmpty && r.sensitivityRatio ≥ minRatio

/-- Append the items of `ys` not yet in `xs`. -/
def union {α : Type} [BEq α] (xs ys : List α) : List α :=
  ys.foldl (fun acc y => if acc.contains y then acc else acc ++ [y]) xs

/-- One more than the largest group, zero without trials, in 64 bits: a trial of the largest
group adds zero. -/
def nextGroup (r : Report) : UInt64 := (r.records.map (·.group + 1)).foldl max 0

/-- Append another report's trials as new groups after this report's, their groups shifted by
this report's next group, wrapping around past the largest word. -/
def merge (a b : Report) : Report :=
  let offset := a.nextGroup
  { a with
    branch := a.branch.orElse fun _ => b.branch
    roots := union a.roots b.roots
    sites := union a.sites b.sites
    resolvedHeads := union a.resolvedHeads b.resolvedHeads
    records := a.records ++ b.records.map fun rec => { rec with group := rec.group + offset } }

/-- The one-line summary, after the report's identity `id`. -/
def summary (r : Report) (id : String) : String :=
  let branch := match r.branch with
    | some b => Branch.idText b
    | none => "-"
  id ++ " [" ++ branch ++ "] trials=" ++ toString r.len ++ " sensitivity=" ++
    Decimal.fixedText r.sensitivityRatio 2 ++ " preservation=" ++
    Decimal.fixedText r.valuePreservationRatio 2

end Report

end BranchSensitivity
