import BranchSensitivity.Analyzer
import BranchSensitivity.Bytecode.Instruction
import BranchSensitivity.Chromosome
import BranchSensitivity.Collaborator.Analysis
import BranchSensitivity.Collaborator.Factory
import BranchSensitivity.Collaborator.Program
import BranchSensitivity.Collaborator.Sandbox
import BranchSensitivity.Collaborator.Synthesizer
import BranchSensitivity.Config
import BranchSensitivity.Decimal.Layout
import BranchSensitivity.Decimal.Nearest
import BranchSensitivity.Decimal.Shortest
import BranchSensitivity.Dependency.Path
import BranchSensitivity.Dependency.RootVariable
import BranchSensitivity.Error
import BranchSensitivity.Fixture
import BranchSensitivity.Inputs
import BranchSensitivity.Json.Basic
import BranchSensitivity.Json.Fault
import BranchSensitivity.Json.Reader
import BranchSensitivity.Json.Writer
import BranchSensitivity.Mutation
import BranchSensitivity.Observation
import BranchSensitivity.Random.ChaCha
import BranchSensitivity.Random.Source
import BranchSensitivity.Random.Uniform
import BranchSensitivity.Report
import BranchSensitivity.Report.Stored
import BranchSensitivity.Resolution
import BranchSensitivity.Seed
import BranchSensitivity.Service.Dependencies
import BranchSensitivity.Service.Document
import BranchSensitivity.Service.Model
import BranchSensitivity.Service.Primitives
import BranchSensitivity.Service.Reports
import BranchSensitivity.Service.Respond
import BranchSensitivity.Service.Runs
import BranchSensitivity.Service.Scenario
import BranchSensitivity.Service.Seeds
import BranchSensitivity.Service.TestCases
import BranchSensitivity.Service.Tests
import BranchSensitivity.Similarity.EditDistance
import BranchSensitivity.Similarity.Values
import BranchSensitivity.Test.Case
import BranchSensitivity.Test.Statement
import BranchSensitivity.Text.Lowercase
import BranchSensitivity.Value.Basic
import BranchSensitivity.Value.TypeName
import BranchSensitivity.Proofs.Draws
import BranchSensitivity.Proofs.InputMirror
import BranchSensitivity.Proofs.Trials
import BranchSensitivity.Proofs.Merge
import BranchSensitivity.Proofs.Branch
import BranchSensitivity.Proofs.Levenshtein
import BranchSensitivity.Proofs.FloatLaws
import BranchSensitivity.Proofs.Similarity
import BranchSensitivity.Proofs.MutationDiffers
import BranchSensitivity.Proofs.IntegerDoubles
import BranchSensitivity.Proofs.RunFaults
import BranchSensitivity.Proofs.Descent
import BranchSensitivity.Proofs.Heads
import BranchSensitivity.Proofs.ResolutionStages
import BranchSensitivity.Proofs.DoubleValues
import BranchSensitivity.Proofs.NumericSimilarity
import BranchSensitivity.Proofs.InputSources
import BranchSensitivity.Proofs.MutationBounds
import BranchSensitivity.Proofs.FreshNames
import BranchSensitivity.Proofs.ObservedSites
import BranchSensitivity.Proofs.SensitiveRuns
import BranchSensitivity.Proofs.ChromosomeHistory
import BranchSensitivity.Proofs.Consistency
import BranchSensitivity.Proofs.SeedBuilding
import BranchSensitivity.Proofs.PreorderWalk
import BranchSensitivity.Proofs.VariableKeys
import BranchSensitivity.Proofs.SelfSimilarity
import BranchSensitivity.Proofs.ArrayStep
