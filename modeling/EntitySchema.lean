import EntitySchema.Text.Blank
import EntitySchema.Text.Size
import EntitySchema.Text.Upper
import EntitySchema.Text.Utf8
import EntitySchema.Text.Digit
import EntitySchema.Text.Reader
import EntitySchema.Toml.Parser
import EntitySchema.Settings
import EntitySchema.Reading
import EntitySchema.Printing
import EntitySchema.Json.Parser
import EntitySchema.Json.Printer
import EntitySchema.Json.Codec
import EntitySchema.Memory
import EntitySchema.Java.Class
import EntitySchema.Disk.Basic
import EntitySchema.Disk.Changes
import EntitySchema.Disk.Volume
import EntitySchema.Stream
import EntitySchema.Generator
import EntitySchema.Failure
import EntitySchema.Glob.Pattern
import EntitySchema.Glob.Search
import EntitySchema.Command
import EntitySchema.CommandLine.Option
import EntitySchema.CommandLine.Reading
import EntitySchema.Discovery
import EntitySchema.Console
import EntitySchema.SchemaFile
import EntitySchema.Checking
import EntitySchema.Generation
import EntitySchema.Progress
import EntitySchema.Project
import EntitySchema.Run
import EntitySchema.Main
import EntitySchema.Proofs.Scan
import EntitySchema.Proofs.Feed
import EntitySchema.Proofs.Segments
import EntitySchema.Proofs.History
import EntitySchema.Proofs.Lines
import EntitySchema.Proofs.Classify
import EntitySchema.Proofs.Writable
import EntitySchema.Proofs.PrintedField
import EntitySchema.Proofs.PrintedSchema
import EntitySchema.Proofs.RoundTrip
import EntitySchema.Proofs.Clean
import EntitySchema.Proofs.Semicolons
import EntitySchema.Proofs.Settled
import EntitySchema.Proofs.Order
import EntitySchema.Proofs.Reprint
import EntitySchema.Proofs.Content
import EntitySchema.Proofs.Utf8
import EntitySchema.Proofs.Streaming
import EntitySchema.Proofs.Checks
import EntitySchema.Proofs.Looking
import EntitySchema.Proofs.Strictness
import EntitySchema.Proofs.Walking
import EntitySchema.Proofs.Placement
import EntitySchema.Proofs.Writing
import EntitySchema.Proofs.Batch
import EntitySchema.Proofs.Answering
import EntitySchema.Proofs.Drivers
import EntitySchema.Proofs.Directories
import EntitySchema.Proofs.Loading
import EntitySchema.Proofs.Variable
import EntitySchema.Proofs.Ending
import EntitySchema.Proofs.KeepingGoing
import EntitySchema.Proofs.Names
import EntitySchema.Proofs.PathOrder
import EntitySchema.Proofs.Rendering
import EntitySchema.Proofs.Soundness
import EntitySchema.Proofs.Entries
import EntitySchema.Proofs.Patterns
import EntitySchema.Proofs.Searching
import EntitySchema.Proofs.Discovering
import EntitySchema.Proofs.Spelling
import EntitySchema.Proofs.Containment
import EntitySchema.Proofs.Accessors
import EntitySchema.Proofs.JsonTokens
import EntitySchema.Proofs.JsonForms
import EntitySchema.Proofs.Refusals
import EntitySchema.Proofs.Speaking
import EntitySchema.Proofs.Layout
import EntitySchema.Proofs.Joining
import EntitySchema.Proofs.Printout
import EntitySchema.Proofs.Above
import EntitySchema.Proofs.Stopping
import EntitySchema.Proofs.Keys
import EntitySchema.Proofs.Words
import EntitySchema.Proofs.Deciding
import EntitySchema.Proofs.Relisting
import EntitySchema.Proofs.Remaking
import EntitySchema.Proofs.Putting
import EntitySchema.Proofs.Repeating
import EntitySchema.Proofs.Cursor
import EntitySchema.Proofs.Signs
import EntitySchema.Proofs.Tiling
import EntitySchema.Proofs.Pointing
import EntitySchema.Proofs.Documents
