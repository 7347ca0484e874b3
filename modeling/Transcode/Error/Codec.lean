/-
**Failures of the codec.** Malformed data, streams that were not made for the given decoder state,
streams that do not belong together, and failures of external tools, each by its cause.
-/
import Transcode.Error.Io
import Transcode.Artifact

namespace Transcode

/-- Why bytes are not a stream, not a state, or not a chunk. -/
inductive Malformation where
  | missingStreamHeader
  | truncatedFrameHeader
  | truncatedFrame
  | unknownFrameType (code : UInt8)
  | opensWithInterFrame
  | missingStateHeader
  | frameLengthMismatch
  | noFrames (chunk : ChunkIndex)
  /-- An external tool ended well without writing the file it was asked for. -/
  | notProduced (what path : String)
  | described (what text : String)
  deriving DecidableEq, Repr

namespace Malformation

/-- The kind of data at fault. -/
def subject : Malformation → String
  | missingStreamHeader | truncatedFrameHeader | truncatedFrame | unknownFrameType _
  | opensWithInterFrame => "bitstream"
  | missingStateHeader | frameLengthMismatch => "state"
  | noFrames _ => "raw chunk"
  | notProduced what _ | described what _ => what

/-- What is wrong with the data. -/
def message : Malformation → String
  | missingStreamHeader => "missing stream header"
  | truncatedFrameHeader => "truncated frame header"
  | truncatedFrame => "truncated frame"
  | unknownFrameType code => s!"unknown frame type {code}"
  | opensWithInterFrame => "stream opens with an inter frame"
  | missingStateHeader => "missing state header"
  | frameLengthMismatch => "frame length does not match payload"
  | noFrames chunk => s!"chunk {chunk.label} has no frames"
  | notProduced _ path => s!"codec did not produce {path}"
  | described _ text => text

end Malformation

/-- Why a stream does not fit the decoder state it is used with. -/
inductive StateMismatch where
  | needsPredecessor
  | predictorNotFresh
  | foreignOldState (chunk : ChunkIndex)
  | discontinuousSuffix
  | notSelfContained
  | described (text : String)
  deriving DecidableEq, Repr

/-- The wording of a state mismatch. -/
def StateMismatch.message : StateMismatch → String
  | .needsPredecessor => "bitstream depends on a predecessor state"
  | .predictorNotFresh => "prediction stream must start from a fresh decoder"
  | .foreignOldState chunk =>
    s!"prediction stream for chunk {chunk.label} was not encoded against the given old state"
  | .discontinuousSuffix => "suffix does not continue from the state left by the prefix"
  | .notSelfContained => "cannot decode a stream that depends on a predecessor state"
  | .described text => text

/-- Why streams cannot be used together. -/
inductive Incompatibility where
  | predictorFrameSize (found expected : Nat)
  | predictorFrameCount (chunk : ChunkIndex) (found expected : Nat)
  | notReproduced (chunk : ChunkIndex)
  | mergedFrameSizes
  | described (text : String)
  deriving DecidableEq, Repr

/-- The wording of an incompatibility. -/
def Incompatibility.message : Incompatibility → String
  | .predictorFrameSize found expected =>
    s!"predictor frame size {found} differs from {expected}"
  | .predictorFrameCount chunk found expected =>
    s!"predictor for chunk {chunk.label} has {found} frames, source has {expected}"
  | .notReproduced chunk =>
    s!"prediction stream for chunk {chunk.label} does not reproduce the source"
  | .mergedFrameSizes => "cannot merge streams with different frame sizes"
  | .described text => text

/-- Why a command template cannot be used for its operation. -/
inductive TemplateError where
  | empty (operation : String)
  | unknownPlaceholder (operation name : String)
  | missingPlaceholder (operation name : String)
  | described (text : String)
  deriving DecidableEq, Repr

/-- The wording of a template error. -/
def TemplateError.message : TemplateError → String
  | .empty operation => s!"{operation} command is empty"
  | .unknownPlaceholder operation name =>
    operation ++ " command uses unknown placeholder \x7b" ++ name ++ "\x7d"
  | .missingPlaceholder operation name =>
    operation ++ " command must reference \x7b" ++ name ++ "\x7d"
  | .described text => text

/-- Why a codec call came to nothing. -/
inductive CodecError where
  | launch (program : String) (cause : IoError)
  | exited (program : String) (status : ExitStatus) (diagnostics : String)
  | malformed (cause : Malformation)
  | stateMismatch (cause : StateMismatch)
  | incompatible (cause : Incompatibility)
  | template (cause : TemplateError)
  | io (cause : IoError)
  | other (text : String)
  /-- The call has panicked over arithmetic that overflows, and does not return: whoever made it
  goes down with it. -/
  | panicked
  deriving DecidableEq, Repr

namespace CodecError

/-- The name of the failure in structured reports. -/
def identifier : CodecError → String
  | launch .. => "Launch"
  | exited .. => "Process"
  | malformed _ => "Malformed"
  | stateMismatch _ => "StateMismatch"
  | incompatible _ => "Incompatible"
  | template _ => "Config"
  | io _ => "Io"
  | other _ => "Other"
  | panicked => "Panic"

/-- The wording of a codec error. -/
def message : CodecError → String
  | launch program cause => s!"Failed to launch {program}: {cause.message}"
  | exited program status diagnostics =>
    s!"{program} exited with {status.message}: {diagnostics}"
  | malformed cause => s!"Malformed {cause.subject}: {cause.message}"
  | stateMismatch cause => s!"Decoder state mismatch: {cause.message}"
  | incompatible cause => s!"Incompatible streams: {cause.message}"
  | template cause => s!"Codec configuration error: {cause.message}"
  | io cause => s!"Codec I/O error: {cause.message}"
  | other text => text
  | panicked => "attempt to add with overflow"

/-- The messages of what lies behind the error, nearest first. -/
def causes : CodecError → List String
  | launch _ cause | io cause => [cause.message]
  | _ => []

end CodecError

end Transcode
