/-
**Startup**: the settings of a program that has just been started come from a file, the environment
and the command line, the later over the earlier, and are checked at the end.
-/
import Transcode.CommandLine.Command
import Transcode.Settings.File
import Transcode.Studio.Basic

namespace Transcode

/-- Where settings came from. -/
structure Sources where
  file : Option String
  fromEnvironment : Nat
  fromCommandLine : Nat
  deriving DecidableEq, Repr

namespace Settings

/-- The settings in a file, or the defaults. -/
def loadOrDefault (path : Option String) (disk : Disk) : Except ConfigError Settings :=
  match path with
  | some path => load path disk
  | none => .ok {}

/-- The settings of a program that has just been started. -/
def initialise (invocation : Invocation) (environment : Environment) (disk : Disk) :
    Except ConfigError (Settings × Sources) := do
  let file ← discover invocation.config disk
  let settings ← loadOrDefault file disk
  let (settings, fromEnvironment) ← environment.layer.applyAll settings
  let (settings, fromCommandLine) ← invocation.layer.applyAll settings
  settings.check
  .ok (settings, { file, fromEnvironment, fromCommandLine })

/-- The engine that the settings ask for. -/
def engine (settings : Settings) (disk : Disk) : Except RunError Engine × Disk :=
  match settings.codec.backend with
  | .simulated => (.ok (.simulated (.ofFrameSize settings.codec.frameSize)), disk)
  | .process =>
    let (result, disk) := External.create settings.codec.commands settings.codec.scratch disk
    (match result with
      | .ok codec => .ok (.external codec)
      | .error error => .error (.config (.invalid "codec.commands" error.message)), disk)

/-- The folder of raw chunks. -/
def chunkFolder (settings : Settings) : ChunkFolder :=
  .ofExtension settings.pipeline.workspace settings.pipeline.chunkExtension

/-- The studio that the settings ask for. -/
def studio (settings : Settings) (launcher : Launcher) (disk : Disk) :
    Except RunError Studio × Disk :=
  let (engine, disk) := settings.engine disk
  (engine.map fun engine => {
    engine
    ledgers := .folder settings.pipeline.workspace
    chunks := settings.chunkFolder
    launcher }, disk)

end Settings

end Transcode
