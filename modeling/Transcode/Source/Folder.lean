/-
**Chunk folders.** The raw chunks of a source lie in the workspace as numbered files
(`FileName.rawChunk`).

* `ChunkFolder.available` counts the files from number zero up to the first gap.
* `ChunkFolder.split` reads as many chunks as asked for, or none.
-/
import Transcode.Disk.Basic
import Transcode.Error.Split
import Transcode.FileName

namespace Transcode

/-- A folder of raw chunks. -/
structure ChunkFolder where
  workspace : String
  extension : String
  deriving DecidableEq, Repr

namespace ChunkFolder

/-- The folder for chunks with an extension, which may be given with its dot. -/
def ofExtension (workspace extension : String) : ChunkFolder :=
  ⟨workspace, String.ofList (extension.toList.dropWhile (· = '.'))⟩

variable (folder : ChunkFolder)

/-- The file of a chunk. -/
def path (source : String) (chunk : ChunkIndex) : String :=
  Path.join folder.workspace (FileName.rawChunk source chunk folder.extension)

/-- The number of consecutive files from the given chunk on. -/
def availableFrom (source : String) (disk : Disk) (chunk : ChunkIndex) : (fuel : Nat) → Nat
  | 0 => 0
  | fuel + 1 =>
    if disk.isFile (folder.path source chunk) then
      availableFrom source disk (chunk + 1) fuel + 1
    else 0

/-- The number of consecutive files from chunk zero on. There are no more of them than entries in
the tree. -/
def available (source : String) (disk : Disk) : Nat :=
  folder.availableFrom source disk 0 (disk.entries.length + 1)

/-- Why the file of a chunk could not be read, when `count` chunks were asked for. -/
def failure (source : String) (disk : Disk) (count : Nat) (chunk : ChunkIndex)
    (error : IoError) : SplitError :=
  if error = .notFound then
    let found := folder.available source disk
    if found < count then .chunkCount source count found
    else .missingChunk (folder.path source chunk)
  else .io error

/-- The raw chunk in its file. -/
def chunk (source : String) (disk : Disk) (count : Nat) (chunk : ChunkIndex) :
    Except SplitError RawChunk :=
  match disk.read (folder.path source chunk) with
  | .ok data => .ok ⟨chunk, folder.path source chunk, data⟩
  | .error error => .error (folder.failure source disk count chunk error)

/-- The next `remaining` of `count` chunks. -/
def chunksFrom (source : String) (disk : Disk) (count : Nat) (first : ChunkIndex) :
    (remaining : Nat) → Except SplitError (List RawChunk)
  | 0 => .ok []
  | remaining + 1 => do
    let chunk ← folder.chunk source disk count first
    let rest ← chunksFrom source disk count (first + 1) remaining
    .ok (chunk :: rest)

/-- The first `count` chunks, of which there must be at least one. -/
def split (source : String) (count : Nat) (disk : Disk) : Except SplitError (List RawChunk) :=
  if count = 0 then .error (.chunkCount source 0 (folder.available source disk))
  else folder.chunksFrom source disk count 0 count

end ChunkFolder

end Transcode
