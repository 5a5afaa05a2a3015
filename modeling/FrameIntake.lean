import FrameIntake.Bytes
import FrameIntake.Connection
import FrameIntake.Connection.Session
import FrameIntake.Consumer
import FrameIntake.Consumer.Clients
import FrameIntake.Framing.Decoder
import FrameIntake.Framing.Extract
import FrameIntake.Framing.LengthPrefix
import FrameIntake.Framing.Partitioner
import FrameIntake.Framing.Verdict
import FrameIntake.Fuse
import FrameIntake.Fuse.Board
import FrameIntake.Host
import FrameIntake.Host.FilePath
import FrameIntake.Host.FileTree
import FrameIntake.Host.NumericName
import FrameIntake.Intake
import FrameIntake.IoError
import FrameIntake.Listener
import FrameIntake.Main
import FrameIntake.Message
import FrameIntake.MessageReader
import FrameIntake.Metrics
import FrameIntake.Notice
import FrameIntake.Options.Address
import FrameIntake.Options.Basic
import FrameIntake.Options.CommandLine
import FrameIntake.Options.Document
import FrameIntake.Options.Escape
import FrameIntake.Options.Load
import FrameIntake.Options.Problem
import FrameIntake.Options.Settings
import FrameIntake.Options.SocketAddress
import FrameIntake.Printer
import FrameIntake.Program
import FrameIntake.ReadMemory
import FrameIntake.Rest
import FrameIntake.Signals
import FrameIntake.Sink
import FrameIntake.Sink.Calls
import FrameIntake.Text.CharRange
import FrameIntake.Text.Extending
import FrameIntake.Text.Number
import FrameIntake.Text.Quoted
import FrameIntake.Text.Shapeless
import FrameIntake.Text.Split
import FrameIntake.Total
import FrameIntake.Proofs.Framing.Finality
import FrameIntake.Proofs.Framing.Cut
import FrameIntake.Proofs.Framing.Chunking
import FrameIntake.Proofs.Framing.Calls
import FrameIntake.Proofs.Framing.Conservation
import FrameIntake.Proofs.Framing.Waiting
import FrameIntake.Proofs.Framing.Cursor
import FrameIntake.Proofs.Framing.Refusal
import FrameIntake.Proofs.Framing.Backlog
import FrameIntake.Proofs.Options.Accepted
import FrameIntake.Proofs.Connection.Backlog
import FrameIntake.Proofs.MessageReader.Answer
import FrameIntake.Proofs.MessageReader.Deliveries
import FrameIntake.Proofs.Connection.Chronicle
import FrameIntake.Proofs.Intake.Deeds
import FrameIntake.Proofs.Intake.Ledger
import FrameIntake.Proofs.Intake.Peers
import FrameIntake.Proofs.Consumer.Step
import FrameIntake.Proofs.Consumer.Lifecycle
import FrameIntake.Proofs.Intake.Still
import FrameIntake.Proofs.Connection.Dues
import FrameIntake.Proofs.Intake.Tally
import FrameIntake.Proofs.Intake.Admission
import FrameIntake.Proofs.Intake.Drained
import FrameIntake.Proofs.Connection.Fate
import FrameIntake.Proofs.Intake.Gate
import FrameIntake.Proofs.Intake.Course
import FrameIntake.Proofs.Intake.View
import FrameIntake.Proofs.Intake.Story
import FrameIntake.Proofs.Intake.Isolation
import FrameIntake.Proofs.Framing.Joined
import FrameIntake.Proofs.Framing.Prefix
import FrameIntake.Proofs.Framing.Binary
import FrameIntake.Proofs.Framing.Leftmost
import FrameIntake.Proofs.Framing.Decimal
import FrameIntake.Proofs.Fuse.Custody
import FrameIntake.Proofs.Fuse.Waiters
import FrameIntake.Proofs.Options.Rules
import FrameIntake.Proofs.Host.Files
import FrameIntake.Proofs.Listener.Tenancy
import FrameIntake.Proofs.Intake.Stop
import FrameIntake.Proofs.Framing.Words
import FrameIntake.Proofs.Framing.Faultless
import FrameIntake.Proofs.Framing.DecimalField
import FrameIntake.Proofs.Framing.EvenCut
import FrameIntake.Proofs.Options.Escapes
import FrameIntake.Proofs.Text.Split
import FrameIntake.Proofs.Options.Address
import FrameIntake.Proofs.Framing.LengthCodec
import FrameIntake.Proofs.Framing.Needle
import FrameIntake.Proofs.Options.Order
import FrameIntake.Proofs.Printer.Whole
