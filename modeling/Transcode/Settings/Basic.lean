/-
**Settings** with their defaults. `Settings.check` turns down values that no run could work with.
-/
import Transcode.Codec.Simulated
import Transcode.Codec.Template
import Transcode.Decimal.Shortest
import Transcode.Error.Config
import Transcode.Policy
import Transcode.Settings.Words

namespace Transcode

/-- Settings of runs. -/
structure PipelineSettings where
  /-- The folder of raw chunks and artifacts. -/
  workspace : String := "workspace"
  /-- The extension of raw chunk files. -/
  chunkExtension : String := "y4m"
  /-- How many tasks of a stage run side by side; one per processor if it is not given. -/
  concurrency : Option Nat := none
  policy : Policy := .resume
  deriving BEq

/-- Settings of the codec. -/
structure CodecSettings where
  backend : Backend := .process
  /-- The frame size of the codec in memory, in bytes. -/
  frameSize : Nat := Simulated.defaultFrameSize
  /-- Where the external tools get their scratch folders. -/
  scratch : Option String := none
  commands : Commands := .standard
  deriving BEq

/-- Settings of segmenting. -/
structure SplitSettings where
  segmenter : String := "ffmpeg"
  /-- The duration of a chunk in seconds. -/
  segmentTime : Float := 0.25
  deriving BEq

/-- Settings of logging. -/
structure LoggingSettings where
  level : String := "info"
  format : LogFormat := .pretty
  deriving BEq

/-- All settings. -/
structure Settings where
  pipeline : PipelineSettings := {}
  codec : CodecSettings := {}
  split : SplitSettings := {}
  logging : LoggingSettings := {}
  deriving BEq

namespace Settings

/-- How many tasks run side by side on a machine with so many processors. -/
def effectiveConcurrency (settings : Settings) (processors : Nat) : Nat :=
  max (settings.pipeline.concurrency.getD processors) 1

/-- Refuses a setting unless the condition holds. -/
def demand (condition : Bool) (setting reason : String) : Except ConfigError Unit :=
  if condition then .ok () else .error (.invalid setting reason)

/-- Whether a number can be a duration. -/
def isDuration (seconds : Float) : Bool :=
  seconds.isFinite && seconds > 0.0

/-- Whether nothing is left of a text without leading dots. -/
def isDots (text : String) : Bool :=
  text.toList.all (· = '.')

/-- Checks the settings, in a fixed order. -/
def check (settings : Settings) : Except ConfigError Unit := do
  demand (settings.pipeline.concurrency ≠ some 0) "pipeline.concurrency" "must be at least 1"
  demand (!isDots settings.pipeline.chunkExtension) "pipeline.chunk_extension"
    "must not be empty"
  demand (settings.codec.frameSize ≠ 0) "codec.frame_size" "must be at least 1"
  demand (isDuration settings.split.segmentTime) "split.segment_time"
    ("must be a positive number of seconds, got " ++ Decimal.text settings.split.segmentTime)
  if settings.codec.backend = .process then
    settings.codec.commands.check.mapError fun error =>
      ConfigError.invalid "codec.commands" (CodecError.template error).message
  match LogLevel.read settings.logging.level with
  | .ok _ => .ok ()
  | .error error => .error (.invalid "logging.level" error.message)

end Settings

end Transcode
