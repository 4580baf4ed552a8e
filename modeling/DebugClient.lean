import DebugClient.CommandLine
import DebugClient.Config
import DebugClient.Console.Carry
import DebugClient.Console.Channel
import DebugClient.Console.Command
import DebugClient.Console.Dialogue
import DebugClient.Console.Error
import DebugClient.Console.Prompt
import DebugClient.Console.Stepping
import DebugClient.Json.Number
import DebugClient.Json.Quote
import DebugClient.Json.Record
import DebugClient.Json.Scan
import DebugClient.Json.Skip
import DebugClient.Main
import DebugClient.Memlog.Apply
import DebugClient.Memlog.Event
import DebugClient.Memlog.Tail
import DebugClient.Memory.AddressMap
import DebugClient.Memory.Observation
import DebugClient.Memory.ProgramState
import DebugClient.Memory.Rendering
import DebugClient.Memory.Value
import DebugClient.Proofs.Console.Answering
import DebugClient.Proofs.Console.Attribution
import DebugClient.Proofs.Console.Bookkeeping
import DebugClient.Proofs.Console.Cataloguing
import DebugClient.Proofs.Console.Chronicle
import DebugClient.Proofs.Console.Conversation
import DebugClient.Proofs.Console.Display
import DebugClient.Proofs.Console.Ending
import DebugClient.Proofs.Console.Exchange
import DebugClient.Proofs.Console.Framing
import DebugClient.Proofs.Console.HandingOut
import DebugClient.Proofs.Console.HiddenStep
import DebugClient.Proofs.Console.Ledger
import DebugClient.Proofs.Console.Overhearing
import DebugClient.Proofs.Console.Prompt
import DebugClient.Proofs.Console.Queueing
import DebugClient.Proofs.Console.Reception
import DebugClient.Proofs.Console.Recognition
import DebugClient.Proofs.Console.Refusal
import DebugClient.Proofs.Console.Replying
import DebugClient.Proofs.Console.Skipping
import DebugClient.Proofs.Console.Slot
import DebugClient.Proofs.Console.StepOver
import DebugClient.Proofs.Console.Withholding
import DebugClient.Proofs.Json.Written
import DebugClient.Proofs.Memlog.Delivery
import DebugClient.Proofs.Memlog.Effect
import DebugClient.Proofs.Memlog.StoredBytes
import DebugClient.Proofs.Memlog.Tail
import DebugClient.Proofs.Memory.AddressMap
import DebugClient.Proofs.Memory.Allocation
import DebugClient.Proofs.Memory.Changes
import DebugClient.Proofs.Memory.Coherence
import DebugClient.Proofs.Memory.Elements
import DebugClient.Proofs.Memory.Filling
import DebugClient.Proofs.Memory.Grouping
import DebugClient.Proofs.Memory.Operation
import DebugClient.Proofs.Memory.Ownership
import DebugClient.Proofs.Memory.Resighting
import DebugClient.Proofs.Memory.Retirement
import DebugClient.Proofs.Memory.Showing
import DebugClient.Proofs.Memory.Sighting
import DebugClient.Proofs.Memory.Syncing
import DebugClient.Proofs.Reply.Abbreviation
import DebugClient.Proofs.Reply.Addresses
import DebugClient.Proofs.Reply.Expansion
import DebugClient.Proofs.Reply.Layout
import DebugClient.Proofs.Reply.Listing
import DebugClient.Proofs.Reply.Naming
import DebugClient.Proofs.Reply.Notice
import DebugClient.Proofs.Reply.Pointee
import DebugClient.Proofs.Reply.Tracing
import DebugClient.Proofs.Session.Closing
import DebugClient.Proofs.Session.Course
import DebugClient.Proofs.Session.Plan
import DebugClient.Proofs.Session.Reachable
import DebugClient.Proofs.Session.Responsive
import DebugClient.Proofs.Session.Unmoved
import DebugClient.Proofs.Snapshot.RoundTrip
import DebugClient.Proofs.Text.Arrival
import DebugClient.Proofs.Text.Cutting
import DebugClient.Proofs.Text.Decoding
import DebugClient.Proofs.Text.Lines
import DebugClient.Proofs.Text.Numerals
import DebugClient.Proofs.Text.Runs
import DebugClient.Reply.Assignment
import DebugClient.Reply.Backtrace
import DebugClient.Reply.Catalogue
import DebugClient.Reply.Entry
import DebugClient.Reply.Literal
import DebugClient.Reply.Locals
import DebugClient.Reply.Printed
import DebugClient.Reply.Stop
import DebugClient.Reply.Unrecognised
import DebugClient.Session.AutoRun
import DebugClient.Session.Basic
import DebugClient.Session.Debugger
import DebugClient.Session.FileStore
import DebugClient.Session.Input
import DebugClient.Session.Interactive
import DebugClient.Session.Recording
import DebugClient.Session.Script
import DebugClient.Session.ScriptFile
import DebugClient.Snapshot.Basic
import DebugClient.Snapshot.JsonLines
import DebugClient.Text.Basic
import DebugClient.Text.CharClass
import DebugClient.Text.Duration
import DebugClient.Text.Fault
import DebugClient.Text.Numeral
import DebugClient.Text.Quoting
import DebugClient.Text.Ranges
import DebugClient.Text.ShellWords
import DebugClient.Text.Utf8
