import HostRegistry.Command.Basic
import HostRegistry.Command.Config
import HostRegistry.Command.Host
import HostRegistry.CommandLine.Fault
import HostRegistry.CommandLine.Grammar
import HostRegistry.CommandLine.Invocation
import HostRegistry.CommandLine.Reader
import HostRegistry.CommandLine.Values
import HostRegistry.Config.Basic
import HostRegistry.Config.Document
import HostRegistry.Config.Environment
import HostRegistry.Config.File
import HostRegistry.Decimal.Shortest
import HostRegistry.Error
import HostRegistry.Files.Fault
import HostRegistry.Files.FileSystem
import HostRegistry.Files.Medium
import HostRegistry.Files.Path
import HostRegistry.Host
import HostRegistry.Json.Fault
import HostRegistry.Json.Numeral
import HostRegistry.Json.Printer
import HostRegistry.Json.Reader
import HostRegistry.Json.Skip
import HostRegistry.Json.Typed
import HostRegistry.Log
import HostRegistry.Main
import HostRegistry.Proofs.Command.Assigned
import HostRegistry.Proofs.Command.Creation
import HostRegistry.Proofs.Command.Edited
import HostRegistry.Proofs.Command.Output
import HostRegistry.Proofs.Command.Recovery
import HostRegistry.Proofs.Command.Registry
import HostRegistry.Proofs.Command.Shown
import HostRegistry.Proofs.Command.Unchanged
import HostRegistry.Proofs.Config.Registers
import HostRegistry.Proofs.Config.Saving
import HostRegistry.Proofs.Config.Stored
import HostRegistry.Proofs.Files.Ancestors
import HostRegistry.Proofs.Files.Changes
import HostRegistry.Proofs.Files.Components
import HostRegistry.Proofs.Files.Deepened
import HostRegistry.Proofs.Files.Directories
import HostRegistry.Proofs.Files.Growth
import HostRegistry.Proofs.Files.Making
import HostRegistry.Proofs.Files.Media
import HostRegistry.Proofs.Files.Segments
import HostRegistry.Proofs.Files.Shape
import HostRegistry.Proofs.Files.Writing
import HostRegistry.Proofs.Json.Accepted
import HostRegistry.Proofs.Json.Exact
import HostRegistry.Proofs.Json.Grammar
import HostRegistry.Proofs.Json.Layout
import HostRegistry.Proofs.Json.Members
import HostRegistry.Proofs.Json.Numbers
import HostRegistry.Proofs.Json.Skipped
import HostRegistry.Proofs.Json.Strings
import HostRegistry.Proofs.Json.Truncated
import HostRegistry.Proofs.Json.Written
import HostRegistry.Proofs.Reading
import HostRegistry.Proofs.Record.Accepted
import HostRegistry.Proofs.Record.Attributes
import HostRegistry.Proofs.Record.Bare
import HostRegistry.Proofs.Record.Display
import HostRegistry.Proofs.Record.Edits
import HostRegistry.Proofs.Record.Families
import HostRegistry.Proofs.Record.History
import HostRegistry.Proofs.Record.Stored
import HostRegistry.Proofs.Record.Truncated
import HostRegistry.Proofs.Record.Views
import HostRegistry.Proofs.SortedMap
import HostRegistry.Proofs.States
import HostRegistry.Proofs.Store.Authority
import HostRegistry.Proofs.Store.BrokenWrites
import HostRegistry.Proofs.Store.Coherence
import HostRegistry.Proofs.Store.Confinement
import HostRegistry.Proofs.Store.Events
import HostRegistry.Proofs.Store.HostFile
import HostRegistry.Proofs.Store.Neighbours
import HostRegistry.Proofs.Store.Overwrite
import HostRegistry.Proofs.Store.Replacement
import HostRegistry.Proofs.Store.Run
import HostRegistry.Proofs.Store.Sharing
import HostRegistry.Proofs.Terminal.Line
import HostRegistry.Proofs.Terminal.RecordLines
import HostRegistry.Proofs.Text.Order
import HostRegistry.Proofs.Text.Quoted
import HostRegistry.Proofs.Toml.Document
import HostRegistry.Proofs.Toml.Quoted
import HostRegistry.Record.Basic
import HostRegistry.Record.Display
import HostRegistry.Record.Document
import HostRegistry.Record.Edits
import HostRegistry.Record.Sheet
import HostRegistry.Record.Views
import HostRegistry.Report
import HostRegistry.Script
import HostRegistry.Session
import HostRegistry.SortedMap
import HostRegistry.Store.Basic
import HostRegistry.Store.File
import HostRegistry.Store.Memory
import HostRegistry.Terminal.Render
import HostRegistry.Terminal.Timestamp
import HostRegistry.Text.Hidden
import HostRegistry.Text.Quoted
import HostRegistry.Text.Rest
import HostRegistry.Toml.Item
import HostRegistry.Toml.Quoted
import HostRegistry.Toml.Reader
import HostRegistry.Toml.Scalar
