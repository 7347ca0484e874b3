/-
**Running scripts.** A `Session` is a shell at work: the tree of files, its parameters, and what has
been written. `Session.evaluate` runs a `Script` in it; programs that are no utilities are started
through the function it is given.

* A redirection opens its file before the command runs, and what the command writes goes to the
  end of it.
* A subshell works on the same tree, but its parameters are its own.
* Each command takes one unit of fuel from those inside it, so a script that never ends is stopped.
-/
import Transcode.Shell.Pattern
import Transcode.Shell.Reader
import Transcode.Shell.Utility

namespace Transcode.Shell

/-- A shell at work. -/
structure Session where
  disk : Disk
  /-- The name of the script, which begins its complaints. -/
  name : String
  arguments : List String
  values : List (String × String)
  /-- The status of the last command. -/
  status : Nat
  output : Bytes
  diagnostics : Bytes

/-- Where a stream leads. -/
inductive Target where
  | output
  | diagnostics
  | file (location : Location)
  | nowhere
  deriving DecidableEq, Repr

/-- The streams of a command. -/
structure Streams where
  input : Bytes
  output : Target
  diagnostics : Target

/-- Why a script does not go on. -/
inductive Interruption where
  | leave (status : Nat)
  /-- The script has run for too long. -/
  | exhausted
  deriving DecidableEq, Repr

/-- Starts a program with arguments and with something to read. -/
abbrev Start := (program : String) → (arguments : List String) → (input : Bytes) → Disk →
  Except IoError Finished × Disk

namespace Session

/-- A step of a session. -/
abbrev Action (α : Type) : Type :=
  ExceptT Interruption (StateM Session) α

/-! ### Writing -/

/-- Writes to the place that a stream leads to. -/
def write (target : Target) (bytes : Bytes) : Action Unit :=
  modify fun session =>
    match target with
    | .output => { session with output := session.output ++ bytes }
    | .diagnostics => { session with diagnostics := session.diagnostics ++ bytes }
    | .nowhere => session
    | .file location =>
      match session.disk.node? location with
      | some (.file data executable) =>
        { session with disk := session.disk.set location (.file (data ++ bytes) executable) }
      | _ => session

/-- Complains, with the name of the script and the line in front. -/
def complain (streams : Streams) (line : Nat) (complaint : String) : Action Unit := do
  let name := (← get).name
  write streams.diagnostics (Bytes.ofString s!"{name}: {line}: {complaint}\n")

/-! ### Parameters -/

/-- The text of a parameter; one that is not set is empty. -/
def parameter (session : Session) (name : String) : String :=
  match name with
  | "0" => session.name
  | "#" => toString session.arguments.length
  | "?" => toString session.status
  | "@" => String.intercalate " " session.arguments
  | "*" => String.intercalate " " session.arguments
  | name =>
    match name.toNat? with
    | some place => session.arguments.getD (place - 1) ""
    | none => (session.values.lookup name).getD ""

/-- The session with a variable set. -/
def assign (session : Session) (name value : String) : Session :=
  { session with
    values := (name, value) :: session.values.filter fun setting => setting.1 ≠ name }

/-- A part of an expanded word. -/
inductive Part where
  /-- Text that is kept as it is. -/
  | solid (text : String)
  /-- Text that is split at blanks. -/
  | loose (text : String)
  /-- The end of a field. -/
  | separator
  deriving DecidableEq, Repr

/-- Text without the line ends at its end. -/
def withoutLineEnds (text : String) : String :=
  String.ofList (text.toList.reverse.dropWhile (· = '\n')).reverse

variable (capture : String → Action Bytes)

/-- The text of a source other than the list of arguments. -/
def sourceText (source : Source) : Action String := do
  match source with
  | .text text => return text
  | .parameter name => return (← get).parameter name
  | .without name edge longest pattern =>
    let text := (← get).parameter name
    return String.ofList (Pattern.without edge longest pattern.toList text.toList)
  | .capture script => return withoutLineEnds (Utf8.lossy (← capture script))
  | .value expression =>
    match Sum.value? (← get).parameter expression with
    | some value => return toString value
    | none => throw (.leave 2)

/-- The parts of a piece. Quoted arguments stay apart from each other. -/
def parts (piece : Piece) : Action (List Part) := do
  match piece with
  | ⟨.parameter "@", true⟩ =>
    return ((← get).arguments.map Part.solid).intersperse .separator
  | ⟨.text text, _⟩ => return [.solid text]
  | ⟨source, true⟩ => return [.solid (← sourceText capture source)]
  | ⟨source, false⟩ => return [.loose (← sourceText capture source)]

/-- The fields of expanded words, with the field that is still open. -/
def fieldsAfter : (opened : Option String) → List Part → List String
  | opened, [] => opened.toList
  | opened, .separator :: rest => opened.toList ++ fieldsAfter none rest
  | opened, .solid text :: rest => fieldsAfter (some (opened.getD "" ++ text)) rest
  | opened, .loose text :: rest =>
    let (closed, opened) := text.toList.foldl
      (fun (closed, opened) c =>
        if c.isWhitespace then (closed ++ Option.toList opened, none)
        else (closed, some (opened.getD "" ++ String.singleton c)))
      (([] : List String), opened)
    closed ++ fieldsAfter opened rest

/-- The fields of a word. -/
def fields (word : Word) : Action (List String) := do
  return fieldsAfter none (← word.mapM (parts capture)).flatten

/-- A word as one text. -/
def text (word : Word) : Action String := do
  return String.join (← word.mapM fun piece => sourceText capture piece.source)

/-! ### Redirections -/

/-- What a shell says when a file cannot be opened. -/
def openingComplaint (path verb missing : String) (error : IoError) : String :=
  let reason :=
    if error = .notFound || error = .notADirectory then missing else Utility.reason error
  s!"cannot {verb} {path}: {reason}"

/-- Opens a file for writing. -/
def openFile (path : String) (extend : Bool) (disk : Disk) : Except IoError (Target × Disk) := do
  if path = "/dev/null" then return (.nowhere, disk)
  let location ← disk.locate path
  match extend, disk.node? location with
  | true, some (.file ..) => return (.file location, disk)
  | _, _ => return (.file location, ← disk.write path [])

/-- The streams with one of them led elsewhere. -/
def lead (streams : Streams) (descriptor : Descriptor) (target : Target) : Streams :=
  match descriptor with
  | .output => { streams with output := target }
  | .diagnostics => { streams with diagnostics := target }

/-- The streams after a redirection, or the complaint about it. -/
def redirect (streams : Streams) : Redirection → Action (Except String Streams)
  | .same descriptor .output => return .ok (lead streams descriptor streams.output)
  | .same descriptor .diagnostics => return .ok (lead streams descriptor streams.diagnostics)
  | .input word => do
    let path ← text capture word
    if path = "/dev/null" then return .ok { streams with input := [] }
    match (← get).disk.read path with
    | .ok bytes => return .ok { streams with input := bytes }
    | .error error => return .error (openingComplaint path "open" "No such file" error)
  | .file descriptor word extend => do
    let path ← text capture word
    match openFile path extend (← get).disk with
    | .ok (target, disk) =>
      modify fun session => { session with disk }
      return .ok (lead streams descriptor target)
    | .error error => return .error (openingComplaint path "create" "Directory nonexistent" error)

/-- The streams after redirections, or the first complaint. -/
def redirectAll (streams : Streams) : List Redirection → Action (Except String Streams)
  | [] => return .ok streams
  | redirection :: rest => do
    match ← redirect capture streams redirection with
    | .ok streams => redirectAll streams rest
    | .error complaint => return .error complaint

/-! ### Commands -/

/-- The utilities that the shell does not start as programs, so that it complains in their name. -/
def builtIn : List String :=
  ["[", "test", "printf", "echo"]

/-- Runs a utility. -/
def useUtility (streams : Streams) (line : Nat) (name : String) (utility : Utility)
    (arguments : List String) : Action Nat := do
  let effect := utility arguments streams.input (← get).disk
  modify fun session => { session with disk := effect.disk }
  write streams.output effect.output
  if !effect.diagnostics.isEmpty then
    if builtIn.contains name then complain streams line (withoutLineEnds effect.diagnostics)
    else write streams.diagnostics (Bytes.ofString effect.diagnostics)
  return effect.status

/-- The status that a shell gives to the end of a program. -/
def statusNumber : ExitStatus → Nat
  | .code value => value
  | .signal number _ => 128 + number

/-- Starts a program that is no utility. -/
def useProgram (start : Start) (streams : Streams) (line : Nat) (program : String)
    (arguments : List String) : Action Nat := do
  let (ended, disk) := start program arguments streams.input (← get).disk
  modify fun session => { session with disk }
  match ended with
  | .ok finished =>
    write streams.output finished.output
    write streams.diagnostics finished.diagnostics
    return statusNumber finished.status
  | .error error =>
    if error = .notFound || error = .notADirectory then
      complain streams line s!"{program}: not found"
      return 127
    else
      complain streams line s!"{program}: {Utility.reason error}"
      return 126

/-- Runs the command with these fields. -/
def useCommand (start : Start) (streams : Streams) (line : Nat) :
    (fields : List String) → Action Nat
  | [] => return 0
  | ":" :: _ => return 0
  | "exit" :: arguments => do
    let status := (arguments.head?.bind String.toNat?).getD (← get).status
    throw (.leave (status % 256))
  | "shift" :: arguments => do
    let count := (arguments.head?.bind String.toNat?).getD 1
    if (← get).arguments.length < count then
      complain streams line "shift: can't shift that many"
      throw (.leave 2)
    modify fun session => { session with arguments := session.arguments.drop count }
    return 0
  | name :: arguments =>
    match Utility.find? name with
    | some utility => useUtility streams line name utility arguments
    | none => useProgram start streams line name arguments

/-- Makes the settings in front of a command. -/
def makeSettings : List (String × Word) → Action Unit
  | [] => return
  | (name, word) :: rest => do
    let value ← text capture word
    modify fun session => session.assign name value
    makeSettings rest

/-- Runs something in a subshell: only what happens to the files and to its streams stays. Leaving
it leaves no more than it. -/
def inside (body : Action Nat) : Action Nat := do
  let before ← get
  let (result, after) := body.run.run before
  set { after with arguments := before.arguments, values := before.values }
  match result with
  | .ok status => return status
  | .error (.leave status) => return status
  | .error .exhausted => throw .exhausted

/-- What something writes, which is then not part of the output. -/
def captured (body : Action Nat) : Action Bytes := do
  let before := (← get).output
  modify fun session => { session with output := [] }
  let status ← inside body
  let written := (← get).output
  modify fun session => { session with output := before, status }
  return written

/-- Keeps a status as that of the last command. -/
def keep (status : Nat) : Action Nat := do
  modify fun session => { session with status }
  return status

/-- Runs a script; the status it ends with. -/
def evaluate (start : Start) : (fuel : Nat) → Streams → Script → Action Nat
  | 0, _, _ => throw .exhausted
  | fuel + 1, streams, script => do
    let evaluate := evaluate start fuel
    let capture (source : String) : Action Bytes :=
      match Script.read source with
      | .ok script => captured (evaluate { streams with output := .output } script)
      | .error error => do
        complain streams error.line "Syntax error"
        throw (.leave 2)
    match script with
    | .nothing => return 0
    | .command line settings words =>
      let fields := (← words.mapM (fields capture)).flatten
      modify fun session => if fields.isEmpty then { session with status := 0 } else session
      makeSettings capture settings
      if fields.isEmpty then return (← get).status
      keep (← useCommand start streams line fields)
    | .redirected body line redirections =>
      match ← redirectAll capture streams redirections with
      | .ok streams => evaluate streams body
      | .error complaint =>
        complain streams line complaint
        keep 2
    | .sequence first .nothing => evaluate streams first
    | .sequence first second =>
      let _ ← evaluate streams first
      evaluate streams second
    | .both first second =>
      let status ← evaluate streams first
      if status = 0 then evaluate streams second else return status
    | .either first second =>
      let status ← evaluate streams first
      if status = 0 then return status else evaluate streams second
    | .inverse body =>
      let status ← evaluate streams body
      keep (if status = 0 then 1 else 0)
    | .pipe first second =>
      let written ← captured (evaluate { streams with output := .output } first)
      keep (← inside (evaluate { streams with input := written } second))
    | .choice condition yes no =>
      let status ← evaluate streams condition
      evaluate streams (if status = 0 then yes else no)
    | .inside body => keep (← inside (evaluate streams body))
    | .loop condition body goesOnAt =>
      let status ← evaluate streams condition
      if (status = 0) = goesOnAt then
        let _ ← evaluate streams body
        evaluate streams (.loop condition body goesOnAt)
      else keep 0
    | .each name words body =>
      let fields := (← words.mapM (fields capture)).flatten
      let _ ← keep 0
      fields.foldlM (fun _ field => do
        modify fun session => session.assign name field
        evaluate streams body) 0

/-- The greatest depth to which commands are nested, a loop counting one level for each round. -/
def depth : Nat := 20000

/-- Runs the text of a script from its beginning to its end. -/
def runText (start : Start) (name source : String) (arguments : List String) (input : Bytes)
    (disk : Disk) : Finished × Disk :=
  let session : Session :=
    { disk, name, arguments, values := [], status := 0, output := [], diagnostics := [] }
  let streams : Streams := { input, output := .output, diagnostics := .diagnostics }
  let body : Action Nat :=
    match Script.read source with
    | .ok script => evaluate start depth streams script
    | .error error => do
      complain streams error.line "Syntax error"
      return 2
  let (result, session) := body.run.run session
  let status : ExitStatus :=
    match result with
    | .ok status => .code status
    | .error (.leave status) => .code status
    | .error .exhausted => .signal 9 "SIGKILL"
  ({ status, output := session.output, diagnostics := session.diagnostics }, session.disk)

end Session

end Transcode.Shell
