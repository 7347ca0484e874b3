/-
**Failures of the configuration**: a file that cannot be read, one that is not a configuration,
and a setting whose value is not allowed.
-/
import Transcode.Error.Io

namespace Transcode

/-- Why there is no usable configuration. -/
inductive ConfigError where
  | read (path : String) (cause : IoError)
  | parse (path : String)
  | invalid (setting reason : String)
  deriving DecidableEq, Repr

namespace ConfigError

/-- The name of the failure in structured reports. -/
def identifier : ConfigError → String
  | read .. => "Read"
  | parse _ => "Parse"
  | invalid .. => "Invalid"

/-- The wording of a configuration error. -/
def message : ConfigError → String
  | read path cause => s!"Failed to read config file {path}: {cause.message}"
  | parse path => s!"Failed to parse TOML config {path}: "
  | invalid setting reason => s!"Invalid value for {setting}: {reason}"

/-- The messages of what lies behind the error, nearest first. -/
def causes : ConfigError → List String
  | read _ cause => [cause.message]
  | _ => []

end ConfigError

end Transcode
