import TaskForest.CommandLine.Flag
import TaskForest.CommandLine.Invocation
import TaskForest.CommandLine.Output
import TaskForest.CommandLine.Usage
import TaskForest.Config.Basic
import TaskForest.Config.Sources
import TaskForest.Config.Yaml
import TaskForest.Files.Database
import TaskForest.Files.Path
import TaskForest.Files.Tree
import TaskForest.Hierarchy.Ancestors
import TaskForest.Hierarchy.Delete
import TaskForest.Hierarchy.Error
import TaskForest.Hierarchy.Keyed
import TaskForest.Hierarchy.Limits
import TaskForest.Hierarchy.Move
import TaskForest.Hierarchy.TreeView
import TaskForest.Hierarchy.Walk
import TaskForest.Json.Basic
import TaskForest.Json.Decode
import TaskForest.Json.Draft
import TaskForest.Json.Numeral
import TaskForest.Json.Printer
import TaskForest.Json.Quoted
import TaskForest.Json.Reader
import TaskForest.Main
import TaskForest.Number.Binary64
import TaskForest.Number.Shortest
import TaskForest.Proofs.Config.Layers
import TaskForest.Proofs.Config.Sources
import TaskForest.Proofs.Files.Database
import TaskForest.Proofs.Files.Disk
import TaskForest.Proofs.Hierarchy.Admission
import TaskForest.Proofs.Hierarchy.Agreement
import TaskForest.Proofs.Hierarchy.Ancestors
import TaskForest.Proofs.Hierarchy.Ascent
import TaskForest.Proofs.Hierarchy.Bounds
import TaskForest.Proofs.Hierarchy.Crowd
import TaskForest.Proofs.Hierarchy.Cycles
import TaskForest.Proofs.Hierarchy.Delete
import TaskForest.Proofs.Hierarchy.Depth
import TaskForest.Proofs.Hierarchy.Detach
import TaskForest.Proofs.Hierarchy.DryRun
import TaskForest.Proofs.Hierarchy.Effort
import TaskForest.Proofs.Hierarchy.Failure
import TaskForest.Proofs.Hierarchy.FalseCycles
import TaskForest.Proofs.Hierarchy.Intact
import TaskForest.Proofs.Hierarchy.Interrupted
import TaskForest.Proofs.Hierarchy.Missing
import TaskForest.Proofs.Hierarchy.Move
import TaskForest.Proofs.Hierarchy.Moves
import TaskForest.Proofs.Hierarchy.Preorder
import TaskForest.Proofs.Hierarchy.Rewritten
import TaskForest.Proofs.Hierarchy.Roots
import TaskForest.Proofs.Hierarchy.Session
import TaskForest.Proofs.Hierarchy.Subtree
import TaskForest.Proofs.Hierarchy.TreeView
import TaskForest.Proofs.Hierarchy.UpAndDown
import TaskForest.Proofs.Hierarchy.Walk
import TaskForest.Proofs.Json.Fields
import TaskForest.Proofs.Json.Numeral
import TaskForest.Proofs.Json.Pretty
import TaskForest.Proofs.Json.Quoted
import TaskForest.Proofs.Json.ReadBack
import TaskForest.Proofs.Pointers.Basic
import TaskForest.Proofs.Pointers.Change
import TaskForest.Proofs.Pointers.Evolution
import TaskForest.Proofs.Pointers.Grounded
import TaskForest.Proofs.Pointers.Height
import TaskForest.Proofs.Pointers.Lineage
import TaskForest.Proofs.Pointers.Listed
import TaskForest.Proofs.Pointers.Upward
import TaskForest.Proofs.Run.Command
import TaskForest.Proofs.Run.Depth
import TaskForest.Proofs.Run.Settings
import TaskForest.Proofs.Run.World
import TaskForest.Proofs.Store.Batch
import TaskForest.Proofs.Store.Coded
import TaskForest.Proofs.Store.Encoded
import TaskForest.Proofs.Store.InMemory
import TaskForest.Proofs.Store.Interleaved
import TaskForest.Proofs.Store.Items
import TaskForest.Proofs.Store.Keeping
import TaskForest.Proofs.Store.Linked
import TaskForest.Proofs.Store.Listing
import TaskForest.Proofs.Store.Logged
import TaskForest.Proofs.Store.Mirror
import TaskForest.Proofs.Store.Readable
import TaskForest.Proofs.Store.Records
import TaskForest.Proofs.Store.Row
import TaskForest.Proofs.Store.Shared
import TaskForest.Proofs.Store.Sorted
import TaskForest.Proofs.Store.Statement
import TaskForest.Proofs.Store.Table
import TaskForest.Proofs.Store.Written
import TaskForest.Proofs.Store.Yields
import TaskForest.Proofs.Task.Json
import TaskForest.Proofs.Text.Ascending
import TaskForest.Proofs.Tree.Json
import TaskForest.Proofs.Tree.Outline
import TaskForest.Report
import TaskForest.Run.Command
import TaskForest.Run.Host
import TaskForest.Run.World
import TaskForest.Store.Basic
import TaskForest.Store.Contention
import TaskForest.Store.Error
import TaskForest.Store.InMemory
import TaskForest.Store.Query
import TaskForest.Store.Records
import TaskForest.Store.Table
import TaskForest.Store.Table.Poke
import TaskForest.Store.Table.Quantity
import TaskForest.Store.Table.Row
import TaskForest.Store.Table.Saved
import TaskForest.Store.Table.Statement
import TaskForest.Task.Basic
import TaskForest.Task.Json
import TaskForest.Task.NewId
import TaskForest.Text.Ascending
import TaskForest.Text.Decimal
import TaskForest.Text.Visible
import TaskForest.Tree.Basic
import TaskForest.Tree.Json
import TaskForest.Yaml.Cursor
import TaskForest.Yaml.Layout
import TaskForest.Yaml.Node
import TaskForest.Yaml.Scalar
import TaskForest.Yaml.Token
