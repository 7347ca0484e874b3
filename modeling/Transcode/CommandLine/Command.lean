/-
**Commands** and how they are given: one of five words with switches of its own, and switches that
may stand before the word as well as after it.

* `Invocation.read` reads a whole command line. A switch after the command wins over the same switch
  before it, and either over the environment.
* `Invocation.layer` is what a command line changes in the settings.
-/
import Transcode.CommandLine.Scan

namespace Transcode

/-- Transcodes one source. -/
structure RunCommand where
  source : String
  chunks : Nat
  concurrency : Option Nat
  policy : Option String
  /-- Where the finished stream goes. -/
  output : Option String
  json : Bool
  deriving DecidableEq, Repr

/-- Cuts a media file into chunks. -/
structure SplitCommand where
  input : String
  source : String
  segmentTime : Option Float

/-- Shows which artifacts of a source exist. -/
structure StatusCommand where
  source : String
  chunks : Nat
  json : Bool
  deriving DecidableEq, Repr

/-- Decodes a stream, and compares it if a source is given. -/
structure DecodeCommand where
  input : String
  output : String
  compareSource : Option String
  chunks : Option Nat
  deriving DecidableEq, Repr

/-- Transcodes several sources. -/
structure BatchCommand where
  sources : List String
  chunks : Nat
  concurrency : Option Nat
  policy : Option String
  json : Bool
  deriving DecidableEq, Repr

/-- What is to be done. -/
inductive Command where
  | run (command : RunCommand)
  | split (command : SplitCommand)
  | status (command : StatusCommand)
  | decode (command : DecodeCommand)
  | batch (command : BatchCommand)

namespace Command

open CommandLine

/-! ### The switches of each command -/

/-- A command as it is given. -/
structure Form where
  name : String
  switches : List Switch
  /-- The command, if all that it needs is given. -/
  build : Matches → Option Command

/-- The switch for the number of chunks. -/
def chunksSwitch : Switch :=
  .option "chunks" (some 'n') .count

/-- The switch for a source. -/
def sourceSwitch : Switch :=
  .option "source" (some 's') .text

/-- The switches of both commands that transcode. -/
def transcodeSwitches : List Switch :=
  [chunksSwitch, .option "concurrency" (some 'j') .count, .option "policy" none .text,
    .flag "json"]

/-- How a run is given. -/
def runForm : Form where
  name := "run"
  switches := sourceSwitch :: .option "output" (some 'o') .path :: transcodeSwitches
  build matched := do
    let source ← matched.text? "source"
    let chunks ← matched.count? "chunks"
    some (run {
      source
      chunks
      concurrency := matched.count? "concurrency"
      policy := matched.text? "policy"
      output := matched.text? "output"
      json := matched.has "json" })

/-- How segmenting is given. -/
def splitForm : Form where
  name := "split"
  switches := [.option "input" (some 'i') .path, sourceSwitch, .option "segment-time" none .seconds]
  build matched := do
    let input ← matched.text? "input"
    let source ← matched.text? "source"
    some (split { input, source, segmentTime := matched.seconds? "segment-time" })

/-- How the status view is given. -/
def statusForm : Form where
  name := "status"
  switches := [sourceSwitch, chunksSwitch, .flag "json"]
  build matched := do
    let source ← matched.text? "source"
    let chunks ← matched.count? "chunks"
    some (status { source, chunks, json := matched.has "json" })

/-- How decoding is given. A source to compare with needs a number of chunks. -/
def decodeForm : Form where
  name := "decode"
  switches := [.option "input" (some 'i') .path, .option "output" (some 'o') .path,
    .option "compare-source" none .text, chunksSwitch]
  build matched := do
    let input ← matched.text? "input"
    let output ← matched.text? "output"
    let compareSource := matched.text? "compare-source"
    let chunks := matched.count? "chunks"
    if compareSource.isSome && chunks.isNone then none
    else some (decode { input, output, compareSource, chunks })

/-- How a batch is given. -/
def batchForm : Form where
  name := "batch"
  switches := ⟨"source", some 's', .append .text, none⟩ :: transcodeSwitches
  build matched := do
    let sources := matched.texts "source"
    let chunks ← matched.count? "chunks"
    if sources.isEmpty then none
    else
      some (batch {
        sources
        chunks
        concurrency := matched.count? "concurrency"
        policy := matched.text? "policy"
        json := matched.has "json" })

/-- All commands. -/
def forms : List Form :=
  [runForm, splitForm, statusForm, decodeForm, batchForm]

end Command

/-- A command line. -/
structure Invocation where
  logLevel : Option String
  logFormat : Option String
  config : Option String
  workspace : Option String
  codec : Option String
  command : Command

namespace Invocation

open CommandLine

/-- The switches that may stand before and after the command. -/
def commonSwitches : List Switch :=
  [.option "log-level" none .text, .option "log-format" none .text,
    ⟨"config", some 'c', .set .path, some "CHUNKSTITCH_CONFIG"⟩,
    .option "workspace" (some 'w') .path, .option "codec" none .text]

/-- The word that asks for help on commands. -/
def helpWord : String := "help"

/-- The part of a command line up to the command. -/
def grammar : Grammar where
  switches := commonSwitches ++ [.help, .version]
  commands := Command.forms.map Command.Form.name ++ [helpWord]

/-- The part of a command line after a command. -/
def formGrammar (form : Command.Form) : Grammar where
  switches := form.switches ++ commonSwitches ++ [.help]
  commands := []

/-- What asking for help on words amounts to. -/
def help : List String → UsageError
  | [] => .helpRequested
  | [word] => if grammar.commands.contains word then .helpRequested else .unknownCommand
  | _ => .unknownCommand

/-- A command with the switches that were given after its word. -/
def readCommand (form : Command.Form) (environment : Environment) (arguments : List String) :
    Except UsageError (Command × Matches) := do
  let (scan, _) ← (formGrammar form).scan .start arguments
  let matched ← (formGrammar form).finish environment scan
  match form.build matched with
  | some command => .ok (command, matched)
  | none => .error .missingSwitch

/-- What a common switch was given: after the command, before it, or by the environment. -/
def common? (before after : Matches) (long : String) : Option String :=
  match before.find? long, after.find? long with
  | some ⟨_, _, false⟩, some ⟨_, _, true⟩ => before.text? long
  | _, some _ => after.text? long
  | _, none => before.text? long

/-- The failure of a command line without a command. -/
def withoutCommand (matched : Matches) : UsageError :=
  if matched.isEmpty then .nothingGiven else .missingCommand

/-- Reads a command line. -/
def read (environment : Environment) (arguments : List String) :
    Except UsageError Invocation := do
  let (scan, word?) ← grammar.scan .start arguments
  match word? with
  | none =>
    let matched ← grammar.finish environment scan
    .error (withoutCommand matched)
  | some (word, rest) =>
    match Command.forms.find? fun form => form.name = word with
    | none => .error (help rest)
    | some form =>
      let (command, after) ← readCommand form environment rest
      let before ← grammar.finish environment scan
      .ok {
        logLevel := common? before after "log-level"
        logFormat := common? before after "log-format"
        config := common? before after "config"
        workspace := common? before after "workspace"
        codec := common? before after "codec"
        command }

/-! ### Settings -/

/-- What the command changes in the settings. -/
def commandChanges : Command → List (Except ConfigError Change)
  | .run command => transcoding command.concurrency command.policy
  | .batch command => transcoding command.concurrency command.policy
  | .split command => (command.segmentTime.map fun seconds => .ok (.segmentTime seconds)).toList
  | .status _ | .decode _ => []
where
  /-- What both commands that transcode can change. -/
  transcoding (concurrency : Option Nat) (policy : Option String) :
      List (Except ConfigError Change) :=
    (concurrency.map fun count => .ok (.concurrency count)).toList ++
      (policy.map Change.readPolicy).toList

/-- What a command line changes in the settings. -/
def layer (invocation : Invocation) : Layer :=
  .ofResults (
    (invocation.workspace.map fun path => .ok (.workspace path)).toList ++
    (invocation.codec.map Change.readBackend).toList ++
    (invocation.logLevel.map fun level => .ok (.logLevel level)).toList ++
    (invocation.logFormat.map Change.readLogFormat).toList ++
    commandChanges invocation.command)

end Invocation

end Transcode
