/-
**Segmenting.** A media file is cut into raw chunks of equal duration by an external tool, which
numbers the files that it writes into the workspace.
-/
import Transcode.Decimal.Shortest
import Transcode.Source.Folder
import Transcode.Tool.Basic

namespace Transcode

/-- A tool that cuts a media file, and what it is to do. -/
structure Segmenter where
  program : String
  /-- The duration of a chunk in seconds. -/
  segmentTime : Float
  input : String
  folder : ChunkFolder

namespace Segmenter

variable (segmenter : Segmenter)

/-- The pattern of file names that the tool is given. -/
def pattern (source : String) : String :=
  Path.join segmenter.folder.workspace (source ++ "_%02d." ++ segmenter.folder.extension)

/-- The arguments of the tool. -/
def arguments (source : String) : List String :=
  ["-i", segmenter.input, "-f", "segment", "-segment_time", Decimal.text segmenter.segmentTime,
    segmenter.pattern source]

/-- What the end of the tool means. -/
def outcome : Except IoError Finished → (program : String) → Except SplitError Unit
  | .error error, program => .error (.segmenter (.launch program error))
  | .ok finished, program =>
    if finished.status.isSuccess then .ok ()
    else .error (.segmenter (.exited program finished.status finished.diagnosticText))

/-- Cuts the input; the number of chunks that are there afterwards. -/
def segment (launcher : Launcher) (source : String) (disk : Disk) :
    Except SplitError Nat × Disk :=
  if !disk.isFile segmenter.input then (.error (.missingChunk segmenter.input), disk)
  else
    match disk.makeFolders segmenter.folder.workspace with
    | (.error error, disk) => (.error (.io error), disk)
    | (.ok (), disk) =>
      let (ended, disk) :=
        launcher.launch segmenter.program (segmenter.arguments source) disk
      ((outcome ended segmenter.program).map fun () => segmenter.folder.available source disk,
        disk)

/-- The first `count` chunks. The input is cut only when fewer are there. -/
def split (launcher : Launcher) (source : String) (count : Nat) (disk : Disk) :
    Except SplitError (List RawChunk) × Disk :=
  if segmenter.folder.available source disk < count then
    match segmenter.segment launcher source disk with
    | (.error error, disk) => (.error error, disk)
    | (.ok _, disk) => (segmenter.folder.split source count disk, disk)
  else (segmenter.folder.split source count disk, disk)

end Segmenter

end Transcode
