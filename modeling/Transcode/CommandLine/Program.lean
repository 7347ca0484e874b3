/-
**The program**: a command line is read, the settings are put together, and the command is carried
out on a tree of files.

* `Program.run` is the program as a function: what it prints, how it ends, and the tree afterwards.
* A failure is printed with all that lies behind it, and decides the exit code.
-/
import Transcode.CommandLine.Startup
import Transcode.Json.Writer
import Transcode.Report.Display
import Transcode.Source.Segmenter
import Transcode.Studio.Comparison

namespace Transcode

/-- Why a command failed. -/
inductive CommandError where
  | run (cause : RunError)
  | reading (path : String) (cause : IoError)
  | writing (path : String) (cause : IoError)
  | differs (source : String) (comparison : Comparison)
  deriving DecidableEq, Repr

namespace CommandError

/-- What went wrong, and the messages of what lies behind it. -/
def chain : CommandError → List String
  | run cause => cause.message :: cause.causes
  | reading path cause => ["Failed to read " ++ path, cause.message]
  | writing path cause => ["Failed to write " ++ path, cause.message]
  | differs source comparison =>
    ["Decoded output differs from " ++ source ++ " at byte " ++
      toString (comparison.firstMismatch.getD 0) ++ " (" ++ toString comparison.decodedBytes ++
      " bytes decoded, " ++ toString comparison.expectedBytes ++ " expected)"]

/-- The wording of a command error. -/
def message (error : CommandError) : String :=
  String.intercalate ": " error.chain

/-- Only failures of runs have codes of their own. -/
def exitCode : CommandError → Nat
  | run cause => cause.exitCode
  | _ => 1

/-- The line in which the program complains of it. -/
def complaint (error : CommandError) : String :=
  match error with
  | run cause => if cause.isPanic then CodecError.panicked.message else "Error: " ++ error.message
  | _ => "Error: " ++ error.message

end CommandError

/-- What a program is started with. -/
structure Surroundings where
  environment : Environment
  launcher : Launcher
  processors : Nat
  /-- The time at the start, and what is known of the time that stages and runs take. -/
  startedAt : Instant
  stageTime : Stage → Span
  runTime : Span

/-- What a program has printed, and its exit code. -/
structure Transcript where
  output : List String
  complaints : List String
  exitCode : Nat
  deriving DecidableEq, Repr

namespace Program

/-! ### Parts of commands -/

/-- The lines printed so far and what the commands work on. -/
structure Desk where
  output : List String
  world : World Site

/-- Part of a command. What has been printed and done stands when it fails. -/
abbrev Work (α : Type) : Type :=
  ExceptT CommandError (StateM Desk) α

namespace Work

/-- Prints a line. -/
def print (line : String) : Work Unit :=
  modify fun desk => { desk with output := desk.output ++ [line] }

/-- Prints lines. -/
def printAll (lines : List String) : Work Unit :=
  modify fun desk => { desk with output := desk.output ++ lines }

/-- Prints a value in structured form. -/
def printJson (value : Json) : Work Unit :=
  print value.pretty

/-- Fails when a run failed. -/
def ofRun {α : Type} : Except RunError α → Work α
  | .ok value => pure value
  | .error error => throw (.run error)

/-- Does something to the site that may fail. -/
def onSite {α : Type} (act : Site → Except RunError α × Site) : Work α := do
  let desk ← get
  let (result, site) := act desk.world.state
  set { desk with world := { desk.world with state := site } }
  ofRun result

/-- Does something to the world. -/
def onWorld {α : Type} (act : World Site → α × World Site) : Work α := do
  let desk ← get
  let (value, world) := act desk.world
  set { desk with world }
  pure value

/-- Reads a file. -/
def readFile (path : String) : Work Bytes := do
  match (← get).world.state.disk.read path with
  | .ok bytes => pure bytes
  | .error error => throw (.reading path error)

/-- Puts a complete file in its place. -/
def writeFile (path : String) (bytes : Bytes) : Work Unit := do
  let result ← onWorld fun world =>
    let (result, disk) := world.state.disk.persist path bytes true
    (result, { world with state := { world.state with disk } })
  match result with
  | .ok () => pure ()
  | .error error => throw (.writing path error)

end Work

/-! ### Commands -/

/-- A studio with its settings and surroundings. -/
structure Bench where
  surroundings : Surroundings
  settings : Settings
  studio : Studio

namespace Bench

variable (bench : Bench)

/-- Where the finished stream of a source goes unless it is said. -/
def outputPath (source : String) : String :=
  Path.join bench.settings.pipeline.workspace (FileName.output source)

/-- The report on the result of a run. -/
def report (result : Run.Result) : Report :=
  .ofResult result bench.surroundings.startedAt bench.surroundings.stageTime
    bench.surroundings.runTime

/-- Transcodes one source. -/
def run (command : RunCommand) : Work Unit := do
  let order ←
    Work.ofRun (Order.create command.source command.chunks bench.settings.pipeline.policy)
  let result ← Work.ofRun (← Work.onWorld (bench.studio.execute order))
  let output := command.output.getD (bench.outputPath command.source)
  Work.writeFile output result.output.bytes
  let report := bench.report result
  if command.json then Work.printJson report.toJson else Work.printAll (report.lines output)

/-- Cuts a media file into chunks. -/
def split (command : SplitCommand) : Work Unit := do
  let segmenter : Segmenter := {
    program := bench.settings.split.segmenter
    segmentTime := bench.settings.split.segmentTime
    input := command.input
    folder := bench.settings.chunkFolder }
  let produced ← Work.onSite fun site =>
    let (result, disk) :=
      segmenter.segment bench.surroundings.launcher command.source site.disk
    (result.mapError RunError.split, { site with disk })
  Work.print ("Segmented " ++ command.input ++ " into " ++ toString produced ++ " chunks in " ++
    bench.settings.pipeline.workspace)

/-- Shows which artifacts of a source exist. -/
def status (command : StatusCommand) : Work Unit := do
  let status ← Work.onSite (bench.studio.status command.source command.chunks)
  if command.json then Work.printJson status.toJson else Work.printAll status.lines

/-- Compares decoded media with the chunks of its source. -/
def compare (media : RawMedia) (source : String) (chunks : Nat) : Work Unit := do
  let comparison ← Work.onSite fun site =>
    (bench.studio.compare media source chunks site, site)
  if comparison.isMatch then
    Work.print ("Decoded output matches " ++ toString chunks ++ " chunks of " ++ source)
  else throw (.differs source comparison)

/-- Decodes a stream, and compares it if a source is given. -/
def decode (command : DecodeCommand) : Work Unit := do
  let data ← Work.readFile command.input
  let media ← Work.onSite (bench.studio.decode ⟨data⟩)
  Work.writeFile command.output media
  Work.print ("Decoded " ++ toString media.length ++ " bytes to " ++ command.output)
  match command.compareSource, command.chunks with
  | some source, some chunks => bench.compare media source chunks
  | _, _ => pure ()

/-- Delivers the results of a batch one after another: the reports, and the first failure. A stream
that cannot be written ends the delivery. -/
def deliver (json : Bool) : List (String × Except RunError Run.Result) →
    Work (List Report × Option RunError)
  | [] => pure ([], none)
  | (source, .error error) :: rest => do
    if !json then Work.print ("Source:      " ++ source ++ " FAILED: " ++ error.message)
    let (reports, _) ← deliver json rest
    pure (reports, some error)
  | (source, .ok result) :: rest => do
    let output := bench.outputPath source
    Work.writeFile output result.output.bytes
    let report := bench.report result
    if !json then Work.printAll (report.lines output)
    let (reports, failure) ← deliver json rest
    pure (report :: reports, failure)

/-- Transcodes several sources. -/
def batch (command : BatchCommand) : Work Unit := do
  let orders ← Work.ofRun (command.sources.mapM fun source =>
    Order.create source command.chunks bench.settings.pipeline.policy)
  let results ← Work.onWorld (bench.studio.batch orders)
  let (reports, failure) ← bench.deliver command.json results
  if command.json then Work.printJson (.array (reports.map Report.toJson))
  match failure with
  | some error => throw (.run error)
  | none => pure ()

/-- Carries out a command. -/
def carryOut : Command → Work Unit
  | .run command => bench.run command
  | .split command => bench.split command
  | .status command => bench.status command
  | .decode command => bench.decode command
  | .batch command => bench.batch command

end Bench

/-! ### The whole program -/

/-- The transcript of a command. A panic speaks for itself. -/
def transcript (result : Except CommandError Unit) (output : List String) : Transcript :=
  match result with
  | .ok () => ⟨output, [], 0⟩
  | .error error => ⟨output, [error.complaint], error.exitCode⟩

/-- Carries out a command line that has been read. -/
def execute (surroundings : Surroundings) (invocation : Invocation) (disk : Disk) :
    Transcript × Disk :=
  match Settings.initialise invocation surroundings.environment disk with
  | .error error => (⟨[], ["Error: " ++ error.message], (RunError.config error).exitCode⟩, disk)
  | .ok (settings, _) =>
    match settings.studio surroundings.launcher disk with
    | (.error error, disk) => (transcript (.error (.run error)) [], disk)
    | (.ok studio, disk) =>
      let bench : Bench := { surroundings, settings, studio }
      let concurrency := settings.effectiveConcurrency surroundings.processors
      let world := World.fresh concurrency { disk, ledgers := [] }
      let (result, desk) := (bench.carryOut invocation.command).run.run { output := [], world }
      (transcript result desk.output, desk.world.state.disk)

/-- Runs the program. A command line that cannot be read leaves the tree alone. -/
def run (surroundings : Surroundings) (arguments : List String) (disk : Disk) :
    Except UsageError Transcript × Disk :=
  match Invocation.read surroundings.environment arguments with
  | .error error => (.error error, disk)
  | .ok invocation =>
    let (transcript, disk) := execute surroundings invocation disk
    (.ok transcript, disk)

end Program

end Transcode
