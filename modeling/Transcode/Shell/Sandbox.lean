/-
**The sandbox.** A `Launcher` that needs no system: it knows the shell and the utilities, and runs
executable scripts that lie in the tree of files. Everything else is not installed.
-/
import Transcode.Shell.Session

namespace Transcode.Shell.Sandbox

/-- Where the shell and the utilities are installed. -/
def installed : List String :=
  ["/bin/", "/usr/bin/"]

/-- The name of a program without the folder in which it is installed. -/
def bareName (program : String) : String :=
  match installed.find? fun folder => program.startsWith folder with
  | some folder => (program.drop folder.length).toString
  | none => program

/-- What the shell does with its arguments: it runs a text, a file, or what it reads. -/
def shell (start : Start) (arguments : List String) (input : Bytes) (disk : Disk) :
    Finished × Disk :=
  let run (name source : String) (arguments : List String) : Finished × Disk :=
    Session.runText start name source arguments input disk
  match arguments with
  | [] => run "sh" (Utf8.lossy input) []
  | ["-c"] =>
    (⟨.code 2, [], Bytes.ofString "sh: 0: -c requires an argument\n"⟩, disk)
  | ["-c", source] => run "sh" source []
  | "-c" :: source :: name :: arguments => run name source arguments
  | path :: arguments =>
    match disk.read path with
    | .ok source => run path (Utf8.lossy source) arguments
    | .error error =>
      let complaint := Session.openingComplaint path "open" "No such file" error
      (⟨.code 2, [], Bytes.ofString ("sh: 0: " ++ complaint ++ "\n")⟩, disk)

/-- Runs what is installed under a name. -/
def installed? (start : Start) (name : String) (arguments : List String) (input : Bytes)
    (disk : Disk) : Option (Finished × Disk) :=
  if name = "sh" then some (shell start arguments input disk)
  else
    (Utility.find? name).map fun utility =>
      let effect := utility arguments input disk
      (⟨.code effect.status, effect.output, Bytes.ofString effect.diagnostics⟩, effect.disk)

/-- The interpreter that the first line of a script names, with its argument. -/
def interpreter? (source : String) : Option (List String) :=
  match source.toList with
  | '#' :: '!' :: rest =>
    let line := (rest.takeWhile (· ≠ '\n')).dropWhile Char.isWhitespace
    let program := line.takeWhile fun c => !c.isWhitespace
    let argument := Blank.trim (String.ofList (line.drop program.length))
    if program.isEmpty then none
    else some (String.ofList program :: if argument.isEmpty then [] else [argument])
  | _ => none

/-- Starts an executable file through its interpreter. -/
def runFile (start : Start) (path : String) (arguments : List String) (input : Bytes)
    (disk : Disk) : Except IoError Finished × Disk :=
  match disk.stat? path with
  | .error error => (.error error, disk)
  | .ok .folder => (.error .permissionDenied, disk)
  | .ok (.file _ false) => (.error .permissionDenied, disk)
  | .ok (.file data true) =>
    match interpreter? (Utf8.lossy data) with
    | some (program :: first) => start program (first ++ path :: arguments) input disk
    | _ => (.error (.described "Exec format error (os error 8)"), disk)

/-- Whether a text holds the character that no argument may hold. -/
def holdsNul (text : String) : Bool :=
  text.toList.contains '\x00'

/-- Starts a program; scripts may start others, nested at most `fuel` deep. -/
def start : (fuel : Nat) → Start
  | 0, _, _, _, disk => (.error (.described "Resource temporarily unavailable (os error 11)"), disk)
  | fuel + 1, program, arguments, input, disk =>
    if (program :: arguments).any holdsNul then
      (.error (.described "nul byte found in provided data"), disk)
    else
      let name := bareName program
      if name.toList.contains '/' then runFile (start fuel) program arguments input disk
      else if name.utf8ByteSize > Disk.maxName then (.error .nameTooLong, disk)
      else
        match installed? (start fuel) name arguments input disk with
        | some (finished, disk) => (.ok finished, disk)
        | none => (.error .notFound, disk)

/-- The sandbox as a launcher. -/
def launcher : Launcher where
  launch program arguments disk := start 32 program arguments [] disk

end Transcode.Shell.Sandbox
