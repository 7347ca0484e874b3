/-
**Changes to settings**, layer by layer. A layer is read from texts, one after another; the first
text that cannot be read ends it (`Layer.ofResults`), and the changes before it stand.
-/
import Transcode.Settings.Basic

namespace Transcode

/-- A change to one setting. -/
inductive Change where
  | workspace (path : String)
  | concurrency (count : Nat)
  | policy (policy : Policy)
  | backend (backend : Backend)
  | frameSize (size : Nat)
  | segmenter (program : String)
  | segmentTime (seconds : Float)
  | logLevel (level : String)
  | logFormat (format : LogFormat)

namespace Change

/-- Makes the change. -/
def apply (settings : Settings) : Change → Settings
  | workspace path =>
    { settings with pipeline := { settings.pipeline with workspace := path } }
  | concurrency count =>
    { settings with pipeline := { settings.pipeline with concurrency := some count } }
  | policy chosen => { settings with pipeline := { settings.pipeline with policy := chosen } }
  | backend chosen => { settings with codec := { settings.codec with backend := chosen } }
  | frameSize size => { settings with codec := { settings.codec with frameSize := size } }
  | segmenter program => { settings with split := { settings.split with segmenter := program } }
  | segmentTime seconds =>
    { settings with split := { settings.split with segmentTime := seconds } }
  | logLevel level => { settings with logging := { settings.logging with level } }
  | logFormat format => { settings with logging := { settings.logging with format } }

/-- The failure to read the text of a setting. -/
def refuse (setting text reason : String) : ConfigError :=
  .invalid setting ("'" ++ text ++ "': " ++ reason)

/-- Reads a change from a text. -/
def reading {α ε : Type} (setting text : String) (make : α → Change) (message : ε → String)
    (value : Except ε α) : Except ConfigError Change :=
  match value with
  | .ok value => .ok (make value)
  | .error error => .error (refuse setting text (message error))

/-- Reads a policy. -/
def readPolicy (text : String) : Except ConfigError Change :=
  reading "pipeline.write_policy" text policy ValueError.message (Policy.read text)

/-- Reads a backend. -/
def readBackend (text : String) : Except ConfigError Change :=
  reading "codec.backend" text backend ValueError.message (Backend.read text)

/-- Reads a log format. -/
def readLogFormat (text : String) : Except ConfigError Change :=
  reading "logging.format" text logFormat ValueError.message (LogFormat.read text)

end Change

/-- Changes, up to a failure to read one. -/
structure Layer where
  changes : List Change
  failure : Option ConfigError

namespace Layer

/-- The changes up to the first failure. -/
def ofResults : List (Except ConfigError Change) → Layer
  | [] => ⟨[], none⟩
  | .error error :: _ => ⟨[], some error⟩
  | .ok change :: rest => { ofResults rest with changes := change :: (ofResults rest).changes }

/-- The settings after all changes, the later ones over the earlier ones. -/
def apply (layer : Layer) (settings : Settings) : Settings :=
  layer.changes.foldl Change.apply settings

/-- The settings after all changes and their number, unless there was a failure. -/
def applyAll (layer : Layer) (settings : Settings) : Except ConfigError (Settings × Nat) :=
  match layer.failure with
  | some error => .error error
  | none => .ok (layer.apply settings, layer.changes.length)

end Layer

end Transcode
