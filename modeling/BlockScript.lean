import BlockScript.Block.Behavior
import BlockScript.Block.Kind
import BlockScript.Block.Registry
import BlockScript.Catalog.Argument
import BlockScript.Catalog.Clock
import BlockScript.Catalog.FileBlock
import BlockScript.Catalog.ListBlock
import BlockScript.Catalog.Operation
import BlockScript.Catalog.Signal
import BlockScript.Catalog.Standard
import BlockScript.Catalog.TextBlock
import BlockScript.Cli.Commands
import BlockScript.Cli.Console
import BlockScript.Cli.Options
import BlockScript.Files.Pathname
import BlockScript.Files.Tree
import BlockScript.Host
import BlockScript.Json.Basic
import BlockScript.Json.Parser
import BlockScript.Json.Printer
import BlockScript.Main
import BlockScript.Node.Address
import BlockScript.Node.Basic
import BlockScript.Node.Document
import BlockScript.Number.Arithmetic
import BlockScript.Number.Binary64
import BlockScript.Number.Layout
import BlockScript.Number.Reading
import BlockScript.Number.Rounding
import BlockScript.Number.Shortest
import BlockScript.Run.Evaluation
import BlockScript.Run.Machine
import BlockScript.Run.Program
import BlockScript.Run.Surroundings
import BlockScript.Settings.Basic
import BlockScript.Settings.Toml
import BlockScript.Sort.Merge
import BlockScript.Sort.Partition
import BlockScript.Sort.Short
import BlockScript.Sort.Stable
import BlockScript.Sort.Stretch
import BlockScript.Store
import BlockScript.Table
import BlockScript.Task
import BlockScript.Text.Blank
import BlockScript.Text.Case
import BlockScript.Text.CaseTable
import BlockScript.Text.InvisibleTable
import BlockScript.Text.Lines
import BlockScript.Text.MarkTable
import BlockScript.Text.Quoted
import BlockScript.Text.Split
import BlockScript.Value.Basic
import BlockScript.Value.Conversion
import BlockScript.Value.Literal
import BlockScript.Value.Order
import BlockScript.Workspace
import BlockScript.Proofs.Catalog.Behaviors
import BlockScript.Proofs.Catalog.Endings
import BlockScript.Proofs.Evaluation.ArgumentKinds
import BlockScript.Proofs.Evaluation.StoreNames
import BlockScript.Proofs.Number.Decimals
import BlockScript.Proofs.Document.Codes
import BlockScript.Proofs.Document.Literals
import BlockScript.Proofs.Document.RoundTrip
import BlockScript.Proofs.Document.Normalization
import BlockScript.Proofs.Document.Grammar
import BlockScript.Proofs.Run.Session
import BlockScript.Proofs.Run.History
import BlockScript.Proofs.Run.Orderly
import BlockScript.Proofs.Evaluation.Watching
import BlockScript.Proofs.Run.Prolonging
import BlockScript.Proofs.Run.Stopping
import BlockScript.Proofs.Json.RoundTrip
import BlockScript.Proofs.Files.Writing
import BlockScript.Proofs.Workspace.Saving
import BlockScript.Proofs.Workspace.Reopening
import BlockScript.Proofs.Node.Shape
import BlockScript.Proofs.Evaluation.Alike
import BlockScript.Proofs.Evaluation.Horizons
import BlockScript.Proofs.Evaluation.Outlasting
import BlockScript.Proofs.Document.Adoption
import BlockScript.Proofs.Document.Reloading
import BlockScript.Proofs.Evaluation.Invocations
import BlockScript.Proofs.Workspace.Running
import BlockScript.Proofs.Document.Growth
import BlockScript.Proofs.Node.Grafting
import BlockScript.Proofs.Node.Slots
import BlockScript.Proofs.Json.Nesting
import BlockScript.Proofs.Document.Depth
import BlockScript.Proofs.Evaluation.Requests
import BlockScript.Proofs.Run.Additions
import BlockScript.Proofs.Node.Relocation
import BlockScript.Proofs.Evaluation.Unrolling
import BlockScript.Proofs.Evaluation.Sequencing
import BlockScript.Proofs.Evaluation.Reaching
import BlockScript.Proofs.Evaluation.Aborting
import BlockScript.Proofs.Sort.Insertion
import BlockScript.Proofs.Sort.Stretches
import BlockScript.Proofs.Sort.Pivots
import BlockScript.Proofs.Value.Ordering
import BlockScript.Proofs.Catalog.ListUpdates
import BlockScript.Proofs.Text.Lines
import BlockScript.Proofs.Catalog.FileEdits
import BlockScript.Proofs.Value.Codec
import BlockScript.Proofs.Text.Bytes
import BlockScript.Proofs.Workspace.Seeding
import BlockScript.Proofs.Document.Positions
import BlockScript.Proofs.Document.Previews
import BlockScript.Proofs.Text.Splitting
import BlockScript.Proofs.Evaluation.Occurrences
import BlockScript.Proofs.Evaluation.Walks
import BlockScript.Proofs.Evaluation.Loopless
