/-
**Words in settings**: codec backends, log formats and log levels.
-/
import Transcode.Text.Vocabulary

namespace Transcode

/-- Which kind of engine is used. -/
inductive Backend where
  /-- External tools, one process per call. -/
  | process
  /-- The codec in memory. -/
  | simulated
  deriving DecidableEq, Repr

namespace Backend

/-- The word for the backend. -/
def name : Backend → String
  | process => "process"
  | simulated => "simulated"

/-- The name in structured reports. -/
def identifier : Backend → String
  | process => "Process"
  | simulated => "Simulated"

/-- The words for backends. -/
def vocabulary : Vocabulary Backend where
  subject := "codec backend"
  plural := "backends"
  words := [process, simulated].map fun backend => (backend.name, backend)
  synonyms := [("sim", simulated)]
  trims := true

/-- Reads the word for a backend. -/
def read (text : String) : Except ValueError Backend :=
  vocabulary.read text

end Backend

/-- How log lines look. -/
inductive LogFormat where
  | pretty
  | compact
  | json
  deriving DecidableEq, Repr

namespace LogFormat

/-- The word for the format. -/
def name : LogFormat → String
  | pretty => "pretty"
  | compact => "compact"
  | json => "json"

/-- The name in structured reports. -/
def identifier : LogFormat → String
  | pretty => "Pretty"
  | compact => "Compact"
  | json => "Json"

/-- The words for log formats. -/
def vocabulary : Vocabulary LogFormat where
  subject := "log format"
  plural := "formats"
  words := [pretty, compact, json].map fun format => (format.name, format)
  synonyms := []
  trims := true

/-- Reads the word for a log format. -/
def read (text : String) : Except ValueError LogFormat :=
  vocabulary.read text

end LogFormat

/-- How much is logged. -/
inductive LogLevel where
  | error
  | warn
  | info
  | debug
  | trace
  deriving DecidableEq, Repr

namespace LogLevel

/-- The word for the level. -/
def name : LogLevel → String
  | error => "error"
  | warn => "warn"
  | info => "info"
  | debug => "debug"
  | trace => "trace"

/-- The words for log levels. -/
def vocabulary : Vocabulary LogLevel where
  subject := "log level"
  plural := "levels"
  words := [error, warn, info, debug, trace].map fun level => (level.name, level)
  synonyms := [("warning", warn)]
  trims := false

/-- Reads the word for a log level. -/
def read (text : String) : Except ValueError LogLevel :=
  vocabulary.read text

end LogLevel

/-- The choice that a word stands for when no other spelling is accepted. -/
def Vocabulary.exact? {α : Type} (vocabulary : Vocabulary α) (word : String) : Option α :=
  vocabulary.words.lookup word

end Transcode
