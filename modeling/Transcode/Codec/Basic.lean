/-
**The codec**, as the pipeline sees it. `Codec.Call` is an operation with its operands,
`Codec.Call.Result` gives the result of each, and a `Codec` answers them all without side effects;
the same call always gets the same answer.
-/
import Transcode.Error.Codec

namespace Transcode

/-- A freshly encoded chunk, and the decoder state it leaves behind. -/
structure Encoded where
  stream : Bitstream
  state : StateHandle
  deriving DecidableEq, Repr

namespace Codec

/-- What a codec can do. -/
inductive Operation where
  | encode
  | decodeState
  | encodeGivenState
  | rebase
  | merge
  | decode
  deriving DecidableEq, Repr

namespace Operation

/-- Every operation, in order. -/
def all : List Operation :=
  [encode, decodeState, encodeGivenState, rebase, merge, decode]

/-- The name used in settings and messages. -/
def name : Operation → String
  | encode => "encode"
  | decodeState => "decode_state"
  | encodeGivenState => "encode_given_state"
  | rebase => "rebase"
  | merge => "merge"
  | decode => "decode"

end Operation

/-- An operation of the codec with its operands. -/
inductive Call where
  /-- Encodes a chunk from scratch, starting with a key frame. -/
  | encode (raw : RawChunk)
  /-- Decodes a self-contained stream and exports the final decoder state. -/
  | decodeState (stream : Bitstream)
  /-- Encodes a chunk as a continuation of the predecessor state, guided by a predictor. -/
  | encodeGivenState (raw : RawChunk) (predecessor : StateHandle) (predictor : Bitstream)
  /-- Rewrites a predictor that was encoded against the old state to follow the new one. -/
  | rebase (raw : RawChunk) (newState oldState : StateHandle) (predictor : Bitstream)
  /-- Appends a stream to another, renumbering frames. -/
  | merge (head tail : Bitstream)
  /-- Decodes a complete stream back to raw media. -/
  | decode (stream : Bitstream)

/-- The operation that is called. -/
def Call.operation : Call → Operation
  | encode _ => .encode
  | decodeState _ => .decodeState
  | encodeGivenState .. => .encodeGivenState
  | rebase .. => .rebase
  | merge .. => .merge
  | decode _ => .decode

/-- The raw chunk among the operands. -/
def Call.chunk? : Call → Option ChunkIndex
  | encode raw | encodeGivenState raw .. | rebase raw .. => some raw.index
  | _ => none

/-- What a call yields when it succeeds. -/
abbrev Call.Result : Call → Type
  | encode _ | merge .. => Bitstream
  | decodeState _ => StateHandle
  | encodeGivenState .. | rebase .. => Encoded
  | decode _ => RawMedia

/-- What a call yields. -/
abbrev Call.Answer (call : Call) : Type :=
  Except CodecError call.Result

end Codec

/-- A codec without side effects. -/
structure Codec where
  encode : RawChunk → Except CodecError Bitstream
  decodeState : Bitstream → Except CodecError StateHandle
  encodeGivenState : RawChunk → StateHandle → Bitstream → Except CodecError Encoded
  rebase : RawChunk → StateHandle → StateHandle → Bitstream → Except CodecError Encoded
  merge : Bitstream → Bitstream → Except CodecError Bitstream
  decode : Bitstream → Except CodecError RawMedia

/-- The answer of a codec to a call. -/
def Codec.answer (codec : Codec) : (call : Codec.Call) → call.Answer
  | .encode raw => codec.encode raw
  | .decodeState stream => codec.decodeState stream
  | .encodeGivenState raw predecessor predictor =>
    codec.encodeGivenState raw predecessor predictor
  | .rebase raw newState oldState predictor => codec.rebase raw newState oldState predictor
  | .merge head tail => codec.merge head tail
  | .decode stream => codec.decode stream

end Transcode
