/-
**Settings in files.** A named file must exist; otherwise the first of a few usual places that
holds a file is taken, if any does.
-/
import Transcode.Disk.Basic
import Transcode.Settings.Document
import Transcode.Text.Utf8

namespace Transcode.Settings

/-- Where a file is looked for when none is named. -/
def usualPaths : List String :=
  ["chunkstitch.toml", "config/chunkstitch.toml"]

/-- The file to read. -/
def discover (named : Option String) (disk : Disk) : Except ConfigError (Option String) :=
  match named with
  | none => .ok (usualPaths.find? fun path => disk.isFile path)
  | some path =>
    if disk.isFile path then .ok (some path)
    else .error (.read path (.described "config file does not exist"))

/-- The text of a file. -/
def readText (path : String) (disk : Disk) : Except IoError String := do
  match Utf8.decode? (← disk.read path) with
  | some text => .ok text
  | none => .error .invalidText

/-- Reads the settings in a file. -/
def load (path : String) (disk : Disk) : Except ConfigError Settings :=
  match readText path disk with
  | .ok text => ofDocument text path
  | .error error => .error (.read path error)

/-- Makes the folder that a file lies in. -/
def makeParent (path : String) (disk : Disk) : Except ConfigError Unit × Disk :=
  match Path.parent? path with
  | none => (.ok (), disk)
  | some parent =>
    let (result, disk) := disk.makeFolders parent
    (result.mapError (.read parent), disk)

/-- Writes all settings into a file. -/
def save (settings : Settings) (path : String) (disk : Disk) : Except ConfigError Unit × Disk :=
  match settings.document with
  | .error error => (.error error, disk)
  | .ok text =>
    match makeParent path disk with
    | (.error error, disk) => (.error error, disk)
    | (.ok (), disk) =>
      match disk.write path (Bytes.ofString text) with
      | .ok disk => (.ok (), disk)
      | .error error => (.error (.read path error), disk)

end Transcode.Settings
