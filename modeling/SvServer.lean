import SvServer.CommandLine
import SvServer.Completion
import SvServer.Completion.Snippet
import SvServer.Config
import SvServer.Debounce
import SvServer.Decimal.Shortest
import SvServer.Definition
import SvServer.Diagnostic
import SvServer.Disk
import SvServer.Documents
import SvServer.Engine
import SvServer.Engine.CrossFile
import SvServer.Finding
import SvServer.Hdl.Keyword
import SvServer.Hdl.Lexeme
import SvServer.Hdl.Token
import SvServer.Include.Graph
import SvServer.Include.Names
import SvServer.Include.ReadIndex
import SvServer.Include.Resolve
import SvServer.Include.Sources
import SvServer.Json.Basic
import SvServer.Json.Float
import SvServer.Json.Printer
import SvServer.Json.Shape
import SvServer.Json.Token
import SvServer.Json.Tree
import SvServer.License.FileStore
import SvServer.License.Gate
import SvServer.License.Key
import SvServer.MacroTable
import SvServer.Main
import SvServer.Notice
import SvServer.Path
import SvServer.Path.Kind
import SvServer.Path.Normal
import SvServer.Project
import SvServer.Project.Change
import SvServer.Project.Discovery
import SvServer.Project.Error
import SvServer.Project.MacroEntry
import SvServer.Project.RootFiles
import SvServer.Project.Settings
import SvServer.Proofs.Brackets
import SvServer.Proofs.Completion
import SvServer.Proofs.Diagnostic
import SvServer.Proofs.Disk
import SvServer.Proofs.Display
import SvServer.Proofs.Documents
import SvServer.Proofs.Engine.Agreement
import SvServer.Proofs.Engine.Awaited
import SvServer.Proofs.Engine.Coverage
import SvServer.Proofs.Engine.CrossChecked
import SvServer.Proofs.Engine.CrossFile
import SvServer.Proofs.Engine.Declarations
import SvServer.Proofs.Engine.Grounded
import SvServer.Proofs.Engine.Idle
import SvServer.Proofs.Engine.Indexed
import SvServer.Proofs.Engine.Kept
import SvServer.Proofs.Engine.Places
import SvServer.Proofs.Engine.Project
import SvServer.Proofs.Engine.Reaching
import SvServer.Proofs.Engine.Representation
import SvServer.Proofs.Engine.Results
import SvServer.Proofs.Engine.Revisions
import SvServer.Proofs.Engine.Roots
import SvServer.Proofs.Engine.Touched
import SvServer.Proofs.Engine.Units
import SvServer.Proofs.Hdl.ByteLexer
import SvServer.Proofs.Hdl.ByteLine
import SvServer.Proofs.Hdl.Joining
import SvServer.Proofs.Hdl.LineEndings
import SvServer.Proofs.Hdl.Partition
import SvServer.Proofs.Hdl.Respacing
import SvServer.Proofs.Hdl.Scanner
import SvServer.Proofs.Hdl.Spelling
import SvServer.Proofs.Hdl.Token
import SvServer.Proofs.Include.Graph
import SvServer.Proofs.Include.Meaning
import SvServer.Proofs.Include.Names
import SvServer.Proofs.Include.Operations
import SvServer.Proofs.Include.ReadIndex
import SvServer.Proofs.Include.Recognition
import SvServer.Proofs.Include.Records
import SvServer.Proofs.Include.Resolve
import SvServer.Proofs.Include.Sources
import SvServer.Proofs.Include.Walk
import SvServer.Proofs.License.History
import SvServer.Proofs.License.Refusal
import SvServer.Proofs.License.Restart
import SvServer.Proofs.Location
import SvServer.Proofs.MacroTable
import SvServer.Proofs.PathSet
import SvServer.Proofs.PathText
import SvServer.Proofs.PlainPath
import SvServer.Proofs.Project.Accounting
import SvServer.Proofs.Project.Alike
import SvServer.Proofs.Project.Altering
import SvServer.Proofs.Project.Applying
import SvServer.Proofs.Project.Carrying
import SvServer.Proofs.Project.Discovery
import SvServer.Proofs.Project.Eligibility
import SvServer.Proofs.Project.ExcludedFiles
import SvServer.Proofs.Project.Excluding
import SvServer.Proofs.Project.FollowUps
import SvServer.Proofs.Project.Including
import SvServer.Proofs.Project.Nesting
import SvServer.Proofs.Project.Operations
import SvServer.Proofs.Project.Refreshing
import SvServer.Proofs.Project.Refusals
import SvServer.Proofs.Project.Reloading
import SvServer.Proofs.Project.Reopening
import SvServer.Proofs.Project.Reporting
import SvServer.Proofs.Project.Rooted
import SvServer.Proofs.Project.Roots
import SvServer.Proofs.Project.Splitting
import SvServer.Proofs.Project.Stored
import SvServer.Proofs.Project.Waiting
import SvServer.Proofs.Project.Walks
import SvServer.Proofs.Repeats
import SvServer.Proofs.Row
import SvServer.Proofs.Server.Alike
import SvServer.Proofs.Server.Course
import SvServer.Proofs.Server.Exclusions
import SvServer.Proofs.Server.FullPass
import SvServer.Proofs.Server.MacroChange
import SvServer.Proofs.Server.Moves
import SvServer.Proofs.Server.Passes
import SvServer.Proofs.Server.Publishing
import SvServer.Proofs.Server.Received
import SvServer.Proofs.Server.Runs
import SvServer.Proofs.Server.SeverityChange
import SvServer.Proofs.Server.Snapshots
import SvServer.Proofs.Server.Switching
import SvServer.Proofs.Server.Unlicensed
import SvServer.Proofs.Snippet.Grammar
import SvServer.Proofs.Snippet.Instantiation
import SvServer.Proofs.Text.Bytes
import SvServer.Proofs.Text.LineTable
import SvServer.Proofs.Text.Offset
import SvServer.Proofs.Text.Position
import SvServer.Proofs.Text.RoundTrip
import SvServer.Proofs.TextCache
import SvServer.Proofs.Unit.Acts
import SvServer.Proofs.Unit.Arrival
import SvServer.Proofs.Unit.Balance
import SvServer.Proofs.Unit.Bounds
import SvServer.Proofs.Unit.Changes
import SvServer.Proofs.Unit.Checked
import SvServer.Proofs.Unit.Edits
import SvServer.Proofs.Unit.Header
import SvServer.Proofs.Unit.Imbalances
import SvServer.Proofs.Unit.InPlace
import SvServer.Proofs.Unit.Labels
import SvServer.Proofs.Unit.Lines
import SvServer.Proofs.Unit.Locality
import SvServer.Proofs.Unit.Located
import SvServer.Proofs.Unit.NameSearch
import SvServer.Proofs.Unit.Outline
import SvServer.Proofs.Unit.Parallel
import SvServer.Proofs.Unit.ParallelWalk
import SvServer.Proofs.Unit.Passages
import SvServer.Proofs.Unit.Reads
import SvServer.Proofs.Unit.Spans
import SvServer.Proofs.Unit.Splice
import SvServer.Proofs.Unit.Stages
import SvServer.Proofs.Unit.StoredBody
import SvServer.Proofs.Uri
import SvServer.Publisher
import SvServer.Server
import SvServer.Server.Message
import SvServer.Server.Protocol
import SvServer.Server.Request
import SvServer.Server.Turn
import SvServer.Text.Blank
import SvServer.Text.CharSet
import SvServer.Text.Hex
import SvServer.Text.Position
import SvServer.TextCache
import SvServer.Unit.Basic
import SvServer.Unit.Compile
import SvServer.Unit.Conditional
import SvServer.Unit.Expansion
import SvServer.Unit.Header
import SvServer.Unit.State
import SvServer.Unit.Structure
import SvServer.Uri.Domain
import SvServer.Uri.Domain.Composition
import SvServer.Uri.Domain.Direction
import SvServer.Uri.Domain.Joiner
import SvServer.Uri.Domain.Mapping
import SvServer.Uri.Domain.Mark
import SvServer.Uri.Domain.Punycode
import SvServer.Uri.Host
import SvServer.Uri.Percent
import SvServer.Uri.Read
import SvServer.Uri.Write
