/-
**Failures of splitting** a source into chunks.
-/
import Transcode.Error.Io

namespace Transcode

/-- Why the segmenter, the external tool that cuts a source, failed. -/
inductive SegmenterError where
  | launch (program : String) (cause : IoError)
  | exited (program : String) (status : ExitStatus) (diagnostics : String)
  | described (text : String)
  deriving DecidableEq, Repr

/-- The wording of a segmenter error. -/
def SegmenterError.message : SegmenterError → String
  | .launch program cause => s!"failed to launch {program}: {cause.message}"
  | .exited program status diagnostics =>
    s!"{program} exited with {status.message}: {diagnostics}"
  | .described text => text

/-- Why the chunks of a source are not to be had. -/
inductive SplitError where
  | chunkCount (source : String) (expected found : Nat)
  | missingChunk (path : String)
  | segmenter (cause : SegmenterError)
  | io (cause : IoError)
  deriving DecidableEq, Repr

namespace SplitError

/-- The name of the failure in structured reports. -/
def identifier : SplitError → String
  | chunkCount .. => "ChunkCount"
  | missingChunk _ => "MissingChunk"
  | segmenter _ => "Segmenter"
  | io _ => "Io"

/-- The wording of a split error. -/
def message : SplitError → String
  | chunkCount source expected found =>
    "Expected " ++ toString expected ++ " chunks for source '" ++ source ++ "', found " ++
      toString found
  | missingChunk path => s!"Missing chunk file: {path}"
  | segmenter cause => s!"Segmenter failed: {cause.message}"
  | io cause => s!"Split I/O error: {cause.message}"

/-- The messages of what lies behind the error, nearest first. -/
def causes : SplitError → List String
  | io cause => [cause.message]
  | _ => []

end SplitError

end Transcode
