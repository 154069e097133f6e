import LineShell.Text.Basic
import LineShell.Text.Order
import LineShell.Text.Utf8
import LineShell.Text.LoneByte
import LineShell.Text.Blank
import LineShell.Text.Printable
import LineShell.Text.Inspect
import LineShell.Text.Lines
import LineShell.Text.Numeral
import LineShell.Text.Show
import LineShell.Text.Words
import LineShell.Disk.Path
import LineShell.Disk.Basic
import LineShell.Disk.Error
import LineShell.Disk.Access
import LineShell.Entries.Basic
import LineShell.Entries.Field
import LineShell.Entries.Line
import LineShell.Entries.File
import LineShell.Entries.Store
import LineShell.Entries.Operation
import LineShell.Settings.Value
import LineShell.Settings.Basic
import LineShell.Settings.Document.Spot
import LineShell.Settings.Document.Scalar
import LineShell.Settings.Document.Word
import LineShell.Settings.Document.Token
import LineShell.Settings.Document
import LineShell.Settings.Defaults
import LineShell.Fault
import LineShell.Event
import LineShell.Wording
import LineShell.Screen
import LineShell.Interpreter
import LineShell.DataRoot
import LineShell.CrashLog
import LineShell.Loop.Script
import LineShell.Loop.Basic
import LineShell.Loop.Run
import LineShell.Front.HeldLine
import LineShell.Front.Terminal
import LineShell.Front.Completion
import LineShell.Front.Palette
import LineShell.Startup
import LineShell.Program.Session
import LineShell.Program.Front
import LineShell.Main
import LineShell.Proofs.Text.Utf8
import LineShell.Proofs.Text.Basic
import LineShell.Proofs.Text.Decoding
import LineShell.Proofs.Text.Words
import LineShell.Proofs.Text.Seams
import LineShell.Proofs.Text.Cutting
import LineShell.Proofs.Text.Consumption
import LineShell.Proofs.Entries.Map
import LineShell.Proofs.Entries.Field
import LineShell.Proofs.Entries.Line
import LineShell.Proofs.Entries.File
import LineShell.Proofs.Disk.Access
import LineShell.Proofs.Entries.RoundTrip
import LineShell.Proofs.Loop.Step
import LineShell.Proofs.Loop.Run
import LineShell.Proofs.Loop.Conservation
import LineShell.Proofs.Loop.Ending
import LineShell.Proofs.Loop.Conversation
import LineShell.Proofs.Loop.Survival
import LineShell.Proofs.Loop.Input
import LineShell.Proofs.Entries.Store
import LineShell.Proofs.Entries.Found
import LineShell.Proofs.Entries.Saving
import LineShell.Proofs.Entries.Persistence
import LineShell.Proofs.Entries.Settling
import LineShell.Proofs.Disk.Likeness
import LineShell.Proofs.CrashLog
import LineShell.Proofs.Program.Session
import LineShell.Proofs.Front.HeldLine
import LineShell.Proofs.Front.Completion
import LineShell.Proofs.Loop.Effects
import LineShell.Proofs.Program.Calm
import LineShell.Proofs.Program.Terminal
import LineShell.Proofs.Program.Front
import LineShell.Proofs.Loop.Account
import LineShell.Proofs.Loop.Remainder
import LineShell.Proofs.Loop.Safety
import LineShell.Proofs.Loop.Discretion
import LineShell.Proofs.Program.Discretion
import LineShell.Proofs.Entries.Canonical
import LineShell.Proofs.Entries.Grammar
import LineShell.Proofs.Entries.Loading
import LineShell.Proofs.Entries.Reporting
import LineShell.Proofs.Entries.Rewriting
import LineShell.Proofs.Entries.Delimiting
import LineShell.Proofs.Entries.Composition
import LineShell.Proofs.Entries.Validity
import LineShell.Proofs.Disk.Directories
import LineShell.Proofs.Entries.Overwriting
import LineShell.Proofs.Front.Chunking
import LineShell.Proofs.CrashLog.Contents
import LineShell.Proofs.Loop.Logging
import LineShell.Proofs.Disk.Proper
import LineShell.Proofs.Settings.Lookup
import LineShell.Proofs.Settings.Fallback
import LineShell.Proofs.Screen
import LineShell.Proofs.Front.Offers
import LineShell.Proofs.Front.Palette
import LineShell.Proofs.Loop.Stream
import LineShell.Proofs.Settings.Defaults
