/-
**Chunks.** A source is cut into chunks numbered from zero; each inherits decoder state from the
chunk before it, and the first from none.

* `ChunkIndex.label` is the two-digit form used in messages and file names.
* `RawChunk` is the raw media of one chunk together with the file it came from.
-/
import Transcode.Bytes
import Transcode.Text.Number

namespace Transcode

/-- The position of a chunk in its source, counted from zero. -/
abbrev ChunkIndex := Nat

namespace ChunkIndex

/-- The chunk whose decoder state this one continues, if it is not the first. -/
def predecessor? : ChunkIndex → Option ChunkIndex
  | 0 => none
  | previous + 1 => some previous

/-- At least two decimal digits. -/
def label (chunk : ChunkIndex) : String :=
  Number.padded 2 chunk

end ChunkIndex

/-- The raw media of one chunk, and the path of the file that holds it. -/
structure RawChunk where
  index : ChunkIndex
  path : String
  data : Bytes
  deriving DecidableEq, Repr

/-- Decoded media. -/
abbrev RawMedia := Bytes

end Transcode
