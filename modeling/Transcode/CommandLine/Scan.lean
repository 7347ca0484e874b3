/-
**Scanning a command line** by the switches and commands of a `Grammar`.

* A switch is given by its name after two dashes, with its value after an equals sign or as the
  next argument, or by its letter after one dash, where letters can be joined and a value may follow
  directly.
* A switch is settled only when the next one comes, or at the end; so of two faults the one that is
  met first need not be the one further left.
* The first word that is no value is the command; two dashes alone end all switches.
-/
import Transcode.CommandLine.Switch
import Transcode.Settings.Environment

namespace Transcode.CommandLine

/-- What a command line, or the part of it after a command, may hold. -/
structure Grammar where
  switches : List Switch
  /-- The names of commands, if a command is expected. -/
  commands : List String

/-- A scan under way. -/
structure Scan where
  matched : Matches
  /-- The latest switch, which is not settled, with the values it has got. -/
  open? : Option (Switch × List String)

namespace Scan

/-- Nothing scanned. -/
def start : Scan :=
  ⟨[], none⟩

/-- Whether the next argument is the value of a switch. -/
def awaitsValue (scan : Scan) : Bool :=
  match scan.open? with
  | some (_, []) => true
  | _ => false

/-- Settles the latest switch. -/
def settle (scan : Scan) : Except UsageError Scan :=
  match scan.open? with
  | none => .ok scan
  | some (switch, values) => do
    let matched ← switch.settle values false scan.matched
    .ok ⟨matched, none⟩

/-- A switch with the value attached to it, or none. -/
def meet (scan : Scan) (switch : Switch) (attached : Option String) : Except UsageError Scan := do
  let scan ← scan.settle
  match attached with
  | none =>
    if switch.action.takesValue then .ok { scan with open? := some (switch, []) }
    else
      let matched ← switch.settle [] false scan.matched
      .ok { scan with matched }
  | some value =>
    let matched ← switch.settle [value] false scan.matched
    .ok { scan with matched }

/-- The value of the latest switch. -/
def giveValue (scan : Scan) (text : String) : Scan :=
  match scan.open? with
  | some (switch, _) => { scan with open? := some (switch, [text]) }
  | none => scan

/-- A name after two dashes, with the value after its equals sign. -/
def long (grammar : Grammar) (scan : Scan) (name : List Char) (attached : Option String) :
    Except UsageError Scan :=
  match grammar.switches.find? fun switch => switch.long.toList = name with
  | none => .error .unknownArgument
  | some switch =>
    if attached.isSome && !switch.action.takesValue then .error .unwantedValue
    else scan.meet switch attached

/-- Letters after one dash. The first that takes a value gets the rest of them. -/
def short (grammar : Grammar) (scan : Scan) : List Char → Except UsageError Scan
  | [] => .ok scan
  | letter :: rest =>
    match grammar.switches.find? fun switch => switch.short = some letter with
    | none => .error .unknownArgument
    | some switch =>
      if switch.action.takesValue then
        let attached :=
          match rest with
          | [] => none
          | '=' :: value => some (String.ofList value)
          | value => some (String.ofList value)
        scan.meet switch attached
      else do
        let scan ← scan.meet switch none
        short grammar scan rest

end Scan

/-- What a word is that is no value and no command. -/
def Grammar.misplaced (grammar : Grammar) (word : String) (afterDashes : Bool) : UsageError :=
  if grammar.commands.isEmpty || (afterDashes && grammar.commands.contains word) then
    .unknownArgument
  else .unknownCommand

/-- The name and the attached value of an argument with two dashes. -/
def splitEquals : List Char → List Char × Option String
  | [] => ([], none)
  | '=' :: value => ([], some (String.ofList value))
  | c :: rest =>
    let (name, value) := splitEquals rest
    (c :: name, value)

/-- Scans arguments up to a command: the scan, and the command with the arguments after it. -/
def Grammar.scan (grammar : Grammar) (scan : Scan) :
    List String → Except UsageError (Scan × Option (String × List String))
  | [] => .ok (scan, none)
  | argument :: rest =>
    if !scan.awaitsValue && grammar.commands.contains argument then
      .ok (scan, some (argument, rest))
    else
      match argument.toList with
      | ['-', '-'] =>
        match rest with
        | [] => .ok (scan, none)
        | word :: _ => .error (grammar.misplaced word true)
      | '-' :: '-' :: text => do
        let (name, attached) := splitEquals text
        let scan ← scan.long grammar name attached
        Grammar.scan grammar scan rest
      | '-' :: letter :: letters => do
        let scan ← scan.short grammar (letter :: letters)
        Grammar.scan grammar scan rest
      | _ =>
        if scan.awaitsValue then Grammar.scan grammar (scan.giveValue argument) rest
        else .error (grammar.misplaced argument false)

/-- Lets variables stand in for switches that were not given. -/
def Grammar.inherit (grammar : Grammar) (environment : Environment) (matched : Matches) :
    Except UsageError Matches :=
  grammar.switches.foldlM (fun matched switch =>
    match switch.inheritsFrom.bind fun name => environment.lookup name with
    | some value =>
      if matched.has switch.long then .ok matched else switch.settle [value] true matched
    | none => .ok matched) matched

/-- Settles the last switch and lets variables stand in. -/
def Grammar.finish (grammar : Grammar) (environment : Environment) (scan : Scan) :
    Except UsageError Matches := do
  let scan ← scan.settle
  grammar.inherit environment scan.matched

end Transcode.CommandLine
