import LineShell.Token
import LineShell.Token.Quote
import LineShell.Token.Lexer
import LineShell.Identifier
import LineShell.Pipeline
import LineShell.Pipeline.Printer
import LineShell.Pipeline.Segment
import LineShell.Pipeline.Parser
import LineShell.Proofs.Scanning
import LineShell.Text.Space
import LineShell.Text.CaseTable
import LineShell.Text.Case
import LineShell.Text.Utf8
import LineShell.Text.Quoted
import LineShell.Text.Rounding
import LineShell.Text.Calendar
import LineShell.Text.Color
import LineShell.Path
import LineShell.Dotenv
import LineShell.Environment
import LineShell.Fault
import LineShell.Duration
import LineShell.Error
import LineShell.Options
import LineShell.Log.Policy
import LineShell.Log.Event
import LineShell.Disk
import LineShell.Disk.Walk
import LineShell.Disk.Change
import LineShell.Disk.Handle
import LineShell.Disk.Layout
import LineShell.Disk.System
import LineShell.Host
import LineShell.Builtin
import LineShell.Builtin.Options
import LineShell.Builtin.Directory
import LineShell.Builtin.Files
import LineShell.Builtin.Echo
import LineShell.Builtin.Variables
import LineShell.Builtin.Flow
import LineShell.Builtin.List
import LineShell.Builtin.Table
import LineShell.Listing
import LineShell.Listing.Tree
import LineShell.Programs
import LineShell.Program
import LineShell.Program.Filter
import LineShell.Program.Measure
import LineShell.Program.Format
import LineShell.Program.Printing
import LineShell.Program.Plain
import LineShell.Program.Search
import LineShell.Program.Script
import LineShell.Program.Script.Scanner
import LineShell.Program.Script.Parser
import LineShell.Program.Script.Pattern
import LineShell.Program.Script.State
import LineShell.Program.Script.Expansion
import LineShell.Program.Script.Builtin
import LineShell.Program.Interpreter
import LineShell.Program.Launch
import LineShell.Session
import LineShell.Run.Expansion
import LineShell.Run.Opening
import LineShell.Run.Stage
import LineShell.Run
import LineShell.Setup
import LineShell.CommandLine
import LineShell.CommandLine.Subscriber
import LineShell.CommandLine.Invocation
import LineShell.Main
import LineShell.Proofs.Reading
import LineShell.Proofs.Chunks
import LineShell.Proofs.Nesting
import LineShell.Proofs.Quoting
import LineShell.Proofs.Guarding
import LineShell.Proofs.Substitution
import LineShell.Proofs.RoundTrip
import LineShell.Proofs.Extent
import LineShell.Proofs.Execution
import LineShell.Proofs.Fates
import LineShell.Proofs.Visits
import LineShell.Proofs.Conduct
import LineShell.Proofs.DataFlow
import LineShell.Proofs.Streams
import LineShell.Proofs.Bookkeeping
import LineShell.Proofs.Decoding
import LineShell.Proofs.Failures
import LineShell.Proofs.Stretches
import LineShell.Proofs.Composition
import LineShell.Proofs.Spans
import LineShell.Proofs.Grouping
import LineShell.Proofs.Grammar
import LineShell.Proofs.NormalForm
import LineShell.Proofs.Provenance
import LineShell.Proofs.Trail
import LineShell.Proofs.Custody
import LineShell.Proofs.Likeness
import LineShell.Proofs.Coupling
import LineShell.Proofs.Discretion
import LineShell.Proofs.Splitting
import LineShell.Proofs.Mirroring
import LineShell.Proofs.ByteOrder
import LineShell.Proofs.LastWrite
import LineShell.Proofs.DotenvWriting
import LineShell.Proofs.LogBook
import LineShell.Proofs.Cleanness
import LineShell.Proofs.Forgery
import LineShell.Proofs.Secrecy
import LineShell.Proofs.Resolving
import LineShell.Proofs.Targets
import LineShell.Proofs.Overlay
import LineShell.Proofs.Depths
import LineShell.Proofs.Unread
import LineShell.Proofs.Unfailing
import LineShell.Proofs.LineByLine
import LineShell.Proofs.InputLines
import LineShell.Proofs.Scripts
import LineShell.Proofs.Numerals
import LineShell.Proofs.Thinning
import LineShell.Proofs.Removal
import LineShell.Proofs.EmptyOperand
import LineShell.Proofs.Diversion
import LineShell.Proofs.Accumulation
import LineShell.Proofs.Flags
import LineShell.Proofs.Turns
import LineShell.Proofs.Directories
import LineShell.Proofs.Reports
import LineShell.Proofs.Sorting
import LineShell.Proofs.Sections
import LineShell.Proofs.Blocks
import LineShell.Proofs.Escapes
import LineShell.Proofs.Naming
import LineShell.Proofs.References
import LineShell.Proofs.Truncation
import LineShell.Proofs.Sizes
import LineShell.Proofs.Descent
import LineShell.Proofs.Agreement
