/-
**Help.** What is printed when a command line is not carried out: the version, an overview of the
commands and their switches, or what is wrong.
-/
import Transcode.CommandLine.Command

namespace Transcode

namespace CommandLine

/-- The name under which the program is started. -/
def programName : String := "chunkstitch"

/-- The name and the version of the program. -/
def versionText : String := programName ++ " 0.1.0"

/-- A switch as it is written, with a mark for its value. -/
def Switch.usage (switch : Switch) : String :=
  let short :=
    match switch.short with
    | some letter => "-" ++ String.singleton letter ++ ", "
    | none => ""
  let value := if switch.action.takesValue then " <" ++ switch.long ++ ">" else ""
  "  " ++ short ++ "--" ++ switch.long ++ value

/-- A section of the overview. -/
def usageSection (title : String) (switches : List Switch) : List String :=
  ["", title ++ ":"] ++ switches.map Switch.usage

/-- An overview of the commands and their switches. -/
def overview : List String :=
  ["Usage: " ++ programName ++ " [options] <command>"] ++
    usageSection "options" Invocation.grammar.switches ++
    Command.forms.flatMap fun form => usageSection form.name form.switches

end CommandLine

/-- The wording of a usage error. -/
def UsageError.message : UsageError → String
  | .helpRequested | .versionRequested | .nothingGiven => ""
  | .missingCommand => "a command is required"
  | .unknownCommand => "unrecognized command"
  | .missingSwitch => "a required option is missing"
  | .unknownArgument => "unexpected argument"
  | .badValue => "invalid value for an option"
  | .missingValue => "an option lacks its value"
  | .repeatedSwitch => "an option is given more than once"
  | .unwantedValue => "unexpected value for an option"

/-- The lines about a command line that is not carried out. -/
def UsageError.lines : UsageError → List String
  | .helpRequested | .nothingGiven => CommandLine.overview
  | .versionRequested => [CommandLine.versionText]
  | error => ["error: " ++ error.message]

end Transcode
