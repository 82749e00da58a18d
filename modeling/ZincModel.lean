import ZincModel.CommandLine.Run
import ZincModel.Main
import ZincModel.Model.Overview
import ZincModel.Session.Command
import ZincModel.Proofs.Model.History
import ZincModel.Proofs.Model.Rules
import ZincModel.Proofs.Model.Blueprint
import ZincModel.Proofs.Model.Restoring
import ZincModel.Proofs.Model.RoundTrip
import ZincModel.Proofs.Value.Object
import ZincModel.Proofs.Json.Objects
import ZincModel.Proofs.Program.Rendering
import ZincModel.Proofs.Solution.Reading
import ZincModel.Proofs.Solver.Verdict
import ZincModel.Proofs.Solution.Assignment
import ZincModel.Proofs.Solver.Sharing
import ZincModel.Proofs.Number.Rounding
import ZincModel.Proofs.Number.Shortest
import ZincModel.Proofs.Json.Number
import ZincModel.Proofs.Json.Names
import ZincModel.Proofs.Json.RoundTrip
import ZincModel.Proofs.Model.JsonRoundTrip
import ZincModel.Proofs.Model.Refusal
import ZincModel.Proofs.Text.Line
import ZincModel.Proofs.Json.Consuming
import ZincModel.Proofs.Json.Relaying
import ZincModel.Proofs.Solution.Parsing
import ZincModel.Proofs.Program.Identity
import ZincModel.Proofs.Model.YamlRoundTrip
import ZincModel.Proofs.Model.Layout
import ZincModel.Proofs.Model.Escaping
import ZincModel.Proofs.CommandLine.Failures
import ZincModel.Proofs.CommandLine.Answers
import ZincModel.Proofs.Files
import ZincModel.Proofs.Solver.Workspace
import ZincModel.Proofs.Model.Admission
import ZincModel.Proofs.Program.Scoping
import ZincModel.Proofs.Solver.Faults
import ZincModel.Proofs.Text.Utf8
import ZincModel.Proofs.Json.Unsorted
import ZincModel.Proofs.Solution.Delivery
import ZincModel.Proofs.Log.Setups
import ZincModel.Proofs.Log.Shown
import ZincModel.Proofs.Solver.Relocation
import ZincModel.Proofs.CommandLine.Verbosity
import ZincModel.Proofs.Model.NormalForm
import ZincModel.Proofs.Value.AtLeast
import ZincModel.Proofs.Model.Bounds
import ZincModel.Proofs.Program.DeclaredType
import ZincModel.Proofs.Solution.FirstNamed
import ZincModel.Proofs.Solution.Separation
import ZincModel.Proofs.Solution.LineEnds
import ZincModel.Proofs.Solution.FirstLine
import ZincModel.Proofs.Solver.Resolution
import ZincModel.Proofs.CommandLine.Precedence
import ZincModel.Proofs.Model.Naming
import ZincModel.Proofs.Model.CanonicalText
import ZincModel.Proofs.Model.Lookup
