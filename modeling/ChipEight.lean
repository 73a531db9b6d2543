import ChipEight.Bits
import ChipEight.Calendar
import ChipEight.Category
import ChipEight.CommandLine
import ChipEight.CommandLine.Options
import ChipEight.Display
import ChipEight.Double
import ChipEight.Double.Shortest
import ChipEight.Drawing
import ChipEight.Fault
import ChipEight.Fault.Raised
import ChipEight.Files
import ChipEight.Files.Path
import ChipEight.Incidents
import ChipEight.Incidents.Boundary
import ChipEight.Instruction
import ChipEight.Journal
import ChipEight.Json.Reader
import ChipEight.Json.Writer
import ChipEight.Keypad
import ChipEight.Log
import ChipEight.Machine
import ChipEight.Machine.Cycle
import ChipEight.Machine.Execute
import ChipEight.Machine.Report
import ChipEight.Main
import ChipEight.Memory
import ChipEight.Memory.Dump
import ChipEight.Plot
import ChipEight.Proofs.CommandLine.Blind
import ChipEight.Proofs.CommandLine.Loops
import ChipEight.Proofs.CommandLine.Preparing
import ChipEight.Proofs.Display.Commuting
import ChipEight.Proofs.Display.Compositing
import ChipEight.Proofs.Display.Draw
import ChipEight.Proofs.Display.Views
import ChipEight.Proofs.Double.Rounding
import ChipEight.Proofs.Double.Shortest
import ChipEight.Proofs.Files.Contents
import ChipEight.Proofs.Files.Layout
import ChipEight.Proofs.Files.Logs
import ChipEight.Proofs.Incidents.Boundaries
import ChipEight.Proofs.Incidents.Bounds
import ChipEight.Proofs.Incidents.History
import ChipEight.Proofs.Incidents.Keeping
import ChipEight.Proofs.Instruction.Opcode
import ChipEight.Proofs.Instruction.Word
import ChipEight.Proofs.Journal.Levels
import ChipEight.Proofs.Journal.LogFile
import ChipEight.Proofs.Json.Characters
import ChipEight.Proofs.Json.Distinct
import ChipEight.Proofs.Json.Fractions
import ChipEight.Proofs.Json.Numerals
import ChipEight.Proofs.Json.Pages
import ChipEight.Proofs.Keypad.EventLog
import ChipEight.Proofs.Machine.Accounts
import ChipEight.Proofs.Machine.Arithmetic
import ChipEight.Proofs.Machine.Blocks
import ChipEight.Proofs.Machine.Chance
import ChipEight.Proofs.Machine.Counting
import ChipEight.Proofs.Machine.Cycle
import ChipEight.Proofs.Machine.Decoding
import ChipEight.Proofs.Machine.Events
import ChipEight.Proofs.Machine.Execution
import ChipEight.Proofs.Machine.Flow
import ChipEight.Proofs.Machine.Frame
import ChipEight.Proofs.Machine.Invariant
import ChipEight.Proofs.Machine.Keystrokes
import ChipEight.Proofs.Machine.Lettering
import ChipEight.Proofs.Machine.Lockstep
import ChipEight.Proofs.Machine.LongNumbers
import ChipEight.Proofs.Machine.Nesting
import ChipEight.Proofs.Machine.Orderly
import ChipEight.Proofs.Machine.Rejection
import ChipEight.Proofs.Machine.Safety
import ChipEight.Proofs.Machine.Storage
import ChipEight.Proofs.Machine.Timers
import ChipEight.Proofs.Machine.Tracing
import ChipEight.Proofs.Machine.Transfer
import ChipEight.Proofs.Machine.Waiting
import ChipEight.Proofs.Machine.WellFormed
import ChipEight.Proofs.Memory.Access
import ChipEight.Proofs.Memory.DumpReading
import ChipEight.Proofs.Memory.Glyphs
import ChipEight.Proofs.Memory.Program
import ChipEight.Proofs.Memory.Ranges
import ChipEight.Proofs.Memory.WholeRanges
import ChipEight.Proofs.Plot.Curves
import ChipEight.Proofs.RandomBytes.Stream
import ChipEight.Proofs.Recorder.Changes
import ChipEight.Proofs.Recorder.Checkpoint
import ChipEight.Proofs.Recorder.Gathering
import ChipEight.Proofs.Recorder.Histogram
import ChipEight.Proofs.Recorder.Loading
import ChipEight.Proofs.Recorder.Recalling
import ChipEight.Proofs.Recorder.Recording
import ChipEight.Proofs.Recorder.Retention
import ChipEight.Proofs.Recorder.Statistics
import ChipEight.Proofs.Recorder.Steady
import ChipEight.Proofs.Recorder.Table
import ChipEight.Proofs.Run
import ChipEight.Proofs.Session.Frames
import ChipEight.Proofs.Session.Loading
import ChipEight.Proofs.Session.Observers
import ChipEight.Proofs.Session.Redraw
import ChipEight.Proofs.Session.Stepping
import ChipEight.Proofs.Session.Tracing
import ChipEight.Proofs.Settings.Dotted
import ChipEight.Proofs.Settings.Fitness
import ChipEight.Proofs.Settings.Live.Loading
import ChipEight.Proofs.Settings.Live.Merge
import ChipEight.Proofs.Settings.Live.Mirrors
import ChipEight.Proofs.Settings.Live.Names
import ChipEight.Proofs.Settings.Live.Reloading
import ChipEight.Proofs.Settings.Live.Sharing
import ChipEight.Proofs.Settings.Live.Touched
import ChipEight.Proofs.Settings.Live.Usual
import ChipEight.Proofs.Settings.Live.Walking
import ChipEight.Proofs.Settings.Loads
import ChipEight.Proofs.Settings.Merging
import ChipEight.Proofs.Settings.Modified
import ChipEight.Proofs.Settings.Overlay
import ChipEight.Proofs.Settings.Pace
import ChipEight.Proofs.Settings.Paths
import ChipEight.Proofs.Settings.Reloading
import ChipEight.Proofs.Settings.Validation
import ChipEight.Proofs.Settings.Walking
import ChipEight.Proofs.Store.Adding
import ChipEight.Proofs.Store.Bringing
import ChipEight.Proofs.Store.Paths
import ChipEight.Proofs.Store.Standing
import ChipEight.Proofs.Store.Turning
import ChipEight.Proofs.Text.Digits
import ChipEight.Proofs.Text.Splitting
import ChipEight.Proofs.Value.Alike
import ChipEight.Proofs.Value.Arithmetic
import ChipEight.Proofs.Value.Distinct
import ChipEight.Proofs.Value.Document
import ChipEight.Proofs.Value.Entries
import ChipEight.Proofs.Value.Lookup
import ChipEight.Proofs.Yaml.Distinct
import ChipEight.Proofs.Yaml.Writing
import ChipEight.RandomBytes
import ChipEight.RandomBytes.Seed
import ChipEight.Recorder
import ChipEight.Recorder.Archive
import ChipEight.Recorder.Query
import ChipEight.Session
import ChipEight.Settings
import ChipEight.Settings.File
import ChipEight.Settings.Live
import ChipEight.Slice
import ChipEight.Store
import ChipEight.Text.Blank
import ChipEight.Text.ByteSize
import ChipEight.Text.Casing
import ChipEight.Text.Digit
import ChipEight.Text.Half
import ChipEight.Text.Hex
import ChipEight.Text.LowerCase
import ChipEight.Text.Numeral
import ChipEight.Text.Printable
import ChipEight.Text.Quoted
import ChipEight.Text.Utf8
import ChipEight.Value
import ChipEight.Value.Arithmetic
import ChipEight.Value.Depth
import ChipEight.Value.Document
import ChipEight.Value.Grid
import ChipEight.Value.Lookup
import ChipEight.Value.Order
import ChipEight.Value.Text
import ChipEight.Value.Word
import ChipEight.Yaml.Composer
import ChipEight.Yaml.Node
import ChipEight.Yaml.Problem
import ChipEight.Yaml.Reader
import ChipEight.Yaml.Scalar
import ChipEight.Yaml.Token
import ChipEight.Yaml.Writer
