import Transcode.Artifact
import Transcode.Bytes
import Transcode.Chunk
import Transcode.Codec.Basic
import Transcode.Codec.DecoderState
import Transcode.Codec.External
import Transcode.Codec.Simulated
import Transcode.Codec.Stream
import Transcode.Codec.Template
import Transcode.CommandLine.Command
import Transcode.CommandLine.Help
import Transcode.CommandLine.Program
import Transcode.CommandLine.Scan
import Transcode.CommandLine.Startup
import Transcode.CommandLine.Switch
import Transcode.Decimal.Reader
import Transcode.Decimal.Shortest
import Transcode.Dependency
import Transcode.Disk.Basic
import Transcode.Disk.Listing
import Transcode.Disk.Path
import Transcode.Error.Codec
import Transcode.Error.Config
import Transcode.Error.Io
import Transcode.Error.Ledger
import Transcode.Error.Run
import Transcode.Error.Split
import Transcode.Error.Value
import Transcode.FileName
import Transcode.Json.Basic
import Transcode.Json.Reader
import Transcode.Json.Record
import Transcode.Json.Writer
import Transcode.Ledger.Archive
import Transcode.Ledger.Basic
import Transcode.Ledger.Memory
import Transcode.Ledger.OnDisk
import Transcode.Main
import Transcode.Policy
import Transcode.Proofs.Codec.Corruption
import Transcode.Proofs.Codec.Counter
import Transcode.Proofs.Codec.External
import Transcode.Proofs.Codec.FrameSize
import Transcode.Proofs.Codec.StoredState
import Transcode.Proofs.CommandLine.Confinement
import Transcode.Proofs.CommandLine.Delivery
import Transcode.Proofs.CommandLine.Precedence
import Transcode.Proofs.Disk.Folder
import Transcode.Proofs.FileName
import Transcode.Proofs.FileName.Roles
import Transcode.Proofs.Ledger.OnDisk
import Transcode.Proofs.Ledger.RawChunks
import Transcode.Proofs.Ledger.Slots
import Transcode.Proofs.Ledger.Sources
import Transcode.Proofs.Ledger.Views
import Transcode.Proofs.Ledger.WriteOnce
import Transcode.Proofs.Run.Afresh
import Transcode.Proofs.Run.Asked
import Transcode.Proofs.Run.Attribution
import Transcode.Proofs.Run.Batches
import Transcode.Proofs.Run.Cancellation
import Transcode.Proofs.Run.Closure
import Transcode.Proofs.Run.Dependency
import Transcode.Proofs.Run.Forecast
import Transcode.Proofs.Run.Integrity
import Transcode.Proofs.Run.Lossless
import Transcode.Proofs.Run.Missing
import Transcode.Proofs.Run.Policies
import Transcode.Proofs.Run.Precheck
import Transcode.Proofs.Run.Recovery
import Transcode.Proofs.Run.SingleSteps
import Transcode.Proofs.Run.Together
import Transcode.Proofs.Run.Unfailing
import Transcode.Proofs.Schedule.Chronicle
import Transcode.Proofs.Schedule.Company
import Transcode.Proofs.Schedule.Gathering
import Transcode.Proofs.Schedule.Workshop
import Transcode.Proofs.Source.Folder
import Transcode.Proofs.Source.Segmenter
import Transcode.Proofs.Studio.Comparison
import Transcode.Report.Basic
import Transcode.Report.Display
import Transcode.Report.Structured
import Transcode.Run.Barrier
import Transcode.Run.Basic
import Transcode.Run.Chain
import Transcode.Run.Coordinator
import Transcode.Run.Order
import Transcode.Run.Rehearsed
import Transcode.Schedule.Drill
import Transcode.Schedule.Flow
import Transcode.Schedule.Pool
import Transcode.Schedule.Task
import Transcode.Settings.Basic
import Transcode.Settings.Change
import Transcode.Settings.Document
import Transcode.Settings.Environment
import Transcode.Settings.File
import Transcode.Settings.Words
import Transcode.Shell.Format
import Transcode.Shell.Pattern
import Transcode.Shell.Reader
import Transcode.Shell.Sandbox
import Transcode.Shell.Scan
import Transcode.Shell.Script
import Transcode.Shell.Session
import Transcode.Shell.Sum
import Transcode.Shell.Utility
import Transcode.Source.Folder
import Transcode.Source.Segmenter
import Transcode.Stage
import Transcode.Studio.Basic
import Transcode.Studio.Comparison
import Transcode.Studio.Status
import Transcode.Text.Blank
import Transcode.Text.CaseData
import Transcode.Text.Hex
import Transcode.Text.Lowercase
import Transcode.Text.Number
import Transcode.Text.Utf8
import Transcode.Text.Vocabulary
import Transcode.Time.Calendar
import Transcode.Time.Instant
import Transcode.Time.Span
import Transcode.Toml.Basic
import Transcode.Toml.Reader
import Transcode.Toml.Record
import Transcode.Toml.Scalar
import Transcode.Toml.Writer
import Transcode.Tool.Basic
