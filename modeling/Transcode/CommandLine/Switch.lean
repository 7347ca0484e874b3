/-
**Switches** of a command line, and the values that they take.

* `Switch.settle` records a switch with its values: a switch that takes one value must have it, and
  is given at most once.
* `UsageError` lists what can be wrong with a command line; asking for help counts as such.
-/
import Transcode.Decimal.Reader
import Transcode.Text.Number

namespace Transcode

/-- Why a command line is not carried out. -/
inductive UsageError where
  | helpRequested
  | versionRequested
  /-- Nothing was given at all, and help is shown instead. -/
  | nothingGiven
  | missingCommand
  | unknownCommand
  | missingSwitch
  | unknownArgument
  | badValue
  | missingValue
  | repeatedSwitch
  | unwantedValue
  deriving DecidableEq, Repr

/-- Only what was asked for is a success. -/
def UsageError.exitCode : UsageError → Nat
  | .helpRequested | .versionRequested => 0
  | _ => 2

namespace CommandLine

/-- What the value of a switch stands for. -/
inductive ValueKind where
  | text
  /-- A path is not empty. -/
  | path
  | count
  | seconds
  deriving DecidableEq, Repr

/-- The value of a switch. -/
inductive Value where
  | text (text : String)
  | count (count : Nat)
  | seconds (seconds : Float)

/-- Reads a value. -/
def ValueKind.read (kind : ValueKind) (text : String) : Except UsageError Value :=
  match kind with
  | .text => .ok (.text text)
  | .path => if text.isEmpty then .error .missingValue else .ok (.text text)
  | .count =>
    match Number.word? text.toList with
    | .ok value => .ok (.count value)
    | .error _ => .error .badValue
  | .seconds =>
    match Decimal.read text with
    | .ok value => .ok (.seconds value)
    | .error _ => .error .badValue

/-- What a switch does. -/
inductive Action where
  /-- Takes one value. -/
  | set (kind : ValueKind)
  /-- Takes one value each time it is given. -/
  | append (kind : ValueKind)
  /-- Takes no value. -/
  | raise
  | help
  | version
  deriving DecidableEq, Repr

namespace Action

/-- Whether the switch takes a value. -/
def takesValue : Action → Bool
  | set _ | append _ => true
  | _ => false

end Action

/-- A switch of a command. -/
structure Switch where
  /-- The name after two dashes. -/
  long : String
  /-- The letter after one dash. -/
  short : Option Char
  action : Action
  /-- The variable that stands in when the switch is not given. -/
  inheritsFrom : Option String
  deriving DecidableEq, Repr

namespace Switch

/-- A switch that takes one value. -/
def option (long : String) (short : Option Char) (kind : ValueKind) : Switch :=
  ⟨long, short, .set kind, none⟩

/-- A switch that takes no value. -/
def flag (long : String) : Switch :=
  ⟨long, none, .raise, none⟩

/-- The switch that asks for help. -/
def help : Switch :=
  ⟨"help", some 'h', .help, none⟩

/-- The switch that asks for the version. -/
def version : Switch :=
  ⟨"version", some 'V', .version, none⟩

end Switch

/-- A switch that was given, with its values. -/
structure Given where
  long : String
  values : List Value
  /-- Whether it comes from the environment. -/
  inherited : Bool

/-- The switches that were given. -/
abbrev Matches := List Given

namespace Matches

/-- The switch of that name, if it was given. -/
def find? (matched : Matches) (long : String) : Option Given :=
  List.find? (fun given => given.long = long) matched

/-- Whether the switch was given. -/
def has (matched : Matches) (long : String) : Bool :=
  (matched.find? long).isSome

/-- The texts that the switch was given. -/
def texts (matched : Matches) (long : String) : List String :=
  match matched.find? long with
  | some given => given.values.filterMap fun
    | .text text => some text
    | _ => none
  | none => []

/-- The text that the switch was given. -/
def text? (matched : Matches) (long : String) : Option String :=
  (matched.texts long).head?

/-- The number that the switch was given. -/
def count? (matched : Matches) (long : String) : Option Nat :=
  match matched.find? long with
  | some ⟨_, [.count count], _⟩ => some count
  | _ => none

/-- The duration that the switch was given. -/
def seconds? (matched : Matches) (long : String) : Option Float :=
  match matched.find? long with
  | some ⟨_, [.seconds seconds], _⟩ => some seconds
  | _ => none

/-- The matches with one more value for a switch. -/
def add (matched : Matches) (long : String) (value : Value) : Matches :=
  match matched with
  | [] => [⟨long, [value], false⟩]
  | given :: rest =>
    if given.long = long then { given with values := given.values ++ [value] } :: rest
    else given :: add rest long value

end Matches

/-- Records a switch with its values. -/
def Switch.settle (switch : Switch) (values : List String) (inherited : Bool)
    (matched : Matches) : Except UsageError Matches :=
  match switch.action, values with
  | .help, _ => .error .helpRequested
  | .version, _ => .error .versionRequested
  | .raise, _ =>
    if matched.has switch.long then .error .repeatedSwitch
    else .ok (matched ++ [⟨switch.long, [], inherited⟩])
  | .set _, [] | .append _, [] => .error .missingValue
  | .set kind, text :: _ =>
    if matched.has switch.long then .error .repeatedSwitch
    else do
      let value ← kind.read text
      .ok (matched ++ [⟨switch.long, [value], inherited⟩])
  | .append kind, text :: _ => do
    let value ← kind.read text
    .ok (matched.add switch.long value)

end CommandLine

end Transcode
