import TaskEngine.Binary64.Decimal
import TaskEngine.Text.Space
import TaskEngine.Text.Word
import TaskEngine.Text.Piece
import TaskEngine.Json.Printer
import TaskEngine.Json.Token
import TaskEngine.Json.Tree
import TaskEngine.OrderedMap
import TaskEngine.Json.Reader
import TaskEngine.Redaction
import TaskEngine.Options
import TaskEngine.Schema
import TaskEngine.Task.Step
import TaskEngine.Files.PathText
import TaskEngine.Project.Reference
import TaskEngine.Capture
import TaskEngine.Log.Record
import TaskEngine.Poll.State
import TaskEngine.Stack
import TaskEngine.Task.Body
import TaskEngine.Task.Freeze
import TaskEngine.Script.Compile
import TaskEngine.Session
import TaskEngine.Project.File
import TaskEngine.Proofs.Text.Piece
import TaskEngine.Proofs.Text.Trimming
import TaskEngine.Proofs.Redaction.Hiding
import TaskEngine.Proofs.Redaction.Passes
import TaskEngine.Proofs.Redaction.Heads
import TaskEngine.Proofs.Redaction.Values
import TaskEngine.Proofs.Redaction.Stability
import TaskEngine.Proofs.Redaction.Assigned
import TaskEngine.Proofs.Redaction.Leaks
import TaskEngine.Proofs.Files.Names
import TaskEngine.Proofs.Files.Trees
import TaskEngine.Proofs.Files.Components
import TaskEngine.Proofs.Files.Guards
import TaskEngine.Proofs.Orgs.Refreshes
import TaskEngine.Proofs.Calls.Conserved
import TaskEngine.Proofs.Calls.Kept
import TaskEngine.Proofs.Calls.Restored
import TaskEngine.Proofs.Calls.Moments
import TaskEngine.Proofs.Calls.Frames
import TaskEngine.Proofs.Log.Recorded
import TaskEngine.Proofs.Calls.Stages
import TaskEngine.Proofs.Log.Hierarchies
import TaskEngine.Proofs.Output.Scopes
import TaskEngine.Proofs.Output.Lines
import TaskEngine.Proofs.Output.Periods
import TaskEngine.Proofs.Options.Merging
import TaskEngine.Proofs.Options.Lists
import TaskEngine.Proofs.Options.Numbers
import TaskEngine.Proofs.Redaction.Outlines
import TaskEngine.Proofs.Options.Defaults
import TaskEngine.Proofs.Options.Credentials
import TaskEngine.Proofs.Options.References
import TaskEngine.Proofs.Options.Resolution
import TaskEngine.Proofs.Calls.Refreshing
import TaskEngine.Proofs.Numbers.Decimals
import TaskEngine.Proofs.Retry.Budget
import TaskEngine.Proofs.Retry.Reference
import TaskEngine.Proofs.Numbers.Whole
import TaskEngine.Proofs.Json.Numerals
import TaskEngine.Proofs.Json.RoundTrip
import TaskEngine.Proofs.Documents.Records
import TaskEngine.Proofs.Frozen.Steps
import TaskEngine.Proofs.Stacks.Guards
import TaskEngine.Proofs.Retry.Bounded
import TaskEngine.Proofs.Retry.Confined
import TaskEngine.Proofs.Json.Values
import TaskEngine.Proofs.Documents.Fields
import TaskEngine.Proofs.Documents.Configs
import TaskEngine.Proofs.Documents.Schemas
import TaskEngine.Proofs.Documents.NormalForms
import TaskEngine.Proofs.Poll.Staircase
import TaskEngine.Proofs.Project.Paths
import TaskEngine.Proofs.Project.Attributes
import TaskEngine.Proofs.Project.Unambiguous
import TaskEngine.Proofs.Project.Cuts
import TaskEngine.Proofs.Project.Loading
