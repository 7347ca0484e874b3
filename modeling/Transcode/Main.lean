/-
**The executable.** The working directory is read into memory, the program runs on that tree, and
what it has changed is written back.
-/
import Transcode.CommandLine.Help
import Transcode.CommandLine.Program
import Transcode.Shell.Sandbox

namespace Transcode.Main

/-- Whether a file is a script that may be run. -/
def isScript (data : Bytes) : Bool :=
  data.take 2 = Bytes.ofString "#!"

/-- Reads everything below a folder, whose location is given. -/
partial def readFolder (location : Location) (listed : Array IO.FS.DirEntry) :
    IO (List (Location × Node)) := do
  let mut entries := []
  for entry in listed do
    let place := location ++ [entry.fileName]
    if ← entry.path.isDir then
      let inner ← readFolder place (← entry.path.readDir)
      entries := (place, .folder) :: inner ++ entries
    else
      let data := (← IO.FS.readBinFile entry.path).toList
      entries := (place, .file data (isScript data)) :: entries
  return entries

/-- The folders from the root down to a location, without the root. -/
def ancestors (location : Location) : List Location :=
  (List.range location.length).map fun depth => location.take (depth + 1)

/-- The working directory as a tree of files. -/
def readDisk : IO Disk := do
  let here ← IO.currentDir
  let home := (Path.names here.toString).filter fun name => name ≠ ""
  let entries ← readFolder home (← here.readDir)
  return { entries := entries ++ (ancestors home).map fun place => (place, .folder), home }

/-- The path of a location. -/
def absolutePath (location : Location) : String :=
  "/" ++ String.intercalate "/" location

/-- Writes what differs between two trees: folders and files that are new or have changed, and the
removal of files that are gone. -/
def writeChanges (before after : Disk) : IO Unit := do
  let byDepth := after.entries.mergeSort fun one other => one.1.length ≤ other.1.length
  for (location, node) in byDepth do
    if before.node? location ≠ some node then
      match node with
      | .folder => IO.FS.createDirAll (absolutePath location)
      | .file data _ => IO.FS.writeBinFile (absolutePath location) data.toByteArray
  for (location, node) in before.entries do
    if node ≠ .folder ∧ after.node? location = none then
      IO.FS.removeFile (absolutePath location)

/-- The time of day, as the time at which a file is made. -/
def now : IO Instant := do
  let (_, path) ← IO.FS.createTempFile
  let made := (← path.metadata).modified
  IO.FS.removeFile path
  let day := made.sec / Instant.secondsPerDay
  return ⟨day, (made.sec - day * Instant.secondsPerDay).toNat, made.nsec.toNat⟩

/-- The variables that the program looks at. -/
def readEnvironment : IO Environment := do
  let switches := Invocation.commonSwitches.filterMap CommandLine.Switch.inheritsFrom
  let names := Environment.readers.map Prod.fst ++ switches
  let found ← names.mapM fun name => do
    let value? ← IO.getEnv name
    return value?.map fun value => (name, value)
  return found.filterMap id

/-- Runs a command line. External tools are those of the sandbox, and each stage does one task at a
time unless it is told otherwise. -/
def run (arguments : List String) : IO UInt32 := do
  let before ← readDisk
  let surroundings : Surroundings := {
    environment := ← readEnvironment
    launcher := Shell.Sandbox.launcher
    processors := 1
    startedAt := ← now
    stageTime := fun _ => .zero
    runTime := .zero }
  match Program.run surroundings arguments before with
  | (.error error, _) =>
    for line in error.lines do
      if error.exitCode = 0 then IO.println line else IO.eprintln line
    return .ofNat error.exitCode
  | (.ok transcript, after) =>
    writeChanges before after
    for line in transcript.output do IO.println line
    for line in transcript.complaints do IO.eprintln line
    return .ofNat transcript.exitCode

end Transcode.Main

def main (arguments : List String) : IO UInt32 :=
  Transcode.Main.run arguments
