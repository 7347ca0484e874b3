/-
**The simulated codec**, small, deterministic and lossless. It behaves like the external engine in
all that a run can observe: a stream records the hash of the decoder state that it must start
from, `Simulated.rebase` refuses a predictor that was not encoded against the old state, and
`Simulated.merge` refuses a suffix that does not continue the prefix.

* Raw media is cut into frames of a fixed number of bytes (`Simulated.frames`).
* `Simulated.continueFrom` encodes frames as differences that continue a state; both
  `Simulated.encodeGivenState` and `Simulated.rebase` end in it. The state may be anybody's, and
  frames that its counter has no room for make the call panic.
-/
import Transcode.Codec.Stream

namespace Transcode

/-- The simulated codec for frames of a given size in bytes. -/
structure Simulated where
  frameSize : Nat
  frameSize_pos : 0 < frameSize

namespace Simulated

/-- The frame size when none is configured. -/
def defaultFrameSize : Nat := 64

/-- The codec for a requested frame size; zero counts as one. -/
def ofFrameSize (requested : Nat) : Simulated :=
  ⟨max requested 1, by omega⟩

/-- A failure of reading as a failure of the codec. -/
def reading {α : Type} (result : Except Malformation α) : Except CodecError α :=
  result.mapError .malformed

/-- The frames of a chunk, of which there is at least one. -/
def frames (codec : Simulated) (raw : RawChunk) : Except CodecError (List Bytes) :=
  if raw.data = [] then .error (.malformed (.noFrames raw.index))
  else .ok (raw.data.pieces (codec.frameSize - 1))

/-- The frame size as streams record it, in 32 bits. -/
def recordedFrameSize (codec : Simulated) : UInt32 :=
  .ofNat codec.frameSize

/-- Frames as differences, each to the one before it. -/
def differences : List Bytes → Bytes → List Frame
  | [], _ => []
  | pixels :: rest, previous => ⟨.inter, Bytes.mix pixels previous⟩ :: differences rest pixels

/-- Encodes frames so that they continue the given state. -/
def continueFrom (codec : Simulated) (pixels : List Bytes) (entry : StateHandle) :
    Except CodecError Encoded := do
  let state ← reading (DecoderState.parse entry)
  let final ← state.advanceAll pixels
  let encoded := differences pixels state.lastFrame
  let stream : Stream := ⟨codec.recordedFrameSize, some (minihash entry), encoded⟩
  .ok ⟨stream.toBitstream, final.toHandle⟩

/-- A predictor must have the frame size of the codec and as many frames as the chunk. -/
def checkPredictor (codec : Simulated) (raw : RawChunk) (pixels : List Bytes)
    (predictor : Stream) : Except CodecError Unit :=
  if predictor.frameSize.toNat ≠ codec.frameSize then
    .error (.incompatible (.predictorFrameSize predictor.frameSize.toNat codec.frameSize))
  else if predictor.frames.length ≠ pixels.length then
    .error (.incompatible
      (.predictorFrameCount raw.index predictor.frames.length pixels.length))
  else .ok ()

/-! ### Operations -/

/-- A key frame, then differences. -/
def encode (codec : Simulated) (raw : RawChunk) : Except CodecError Bitstream := do
  match ← codec.frames raw with
  | [] => .ok (Stream.toBitstream ⟨codec.recordedFrameSize, none, []⟩)
  | first :: rest =>
    let encoded := ⟨.key, first⟩ :: differences rest first
    .ok (Stream.toBitstream ⟨codec.recordedFrameSize, none, encoded⟩)

/-- Decodes a stream that needs no predecessor state. The error names what the stream lacks. -/
def decodeFresh (stream : Bitstream) (dependent : StateMismatch) :
    Except CodecError (List Bytes × DecoderState) := do
  let stream ← reading (Stream.parse stream.bytes)
  if stream.entryHash.isSome then .error (.stateMismatch dependent)
  else stream.decodeFrom .fresh

/-- The state after decoding a self-contained stream. -/
def decodeState (stream : Bitstream) : Except CodecError StateHandle := do
  let (_, final) ← decodeFresh stream .needsPredecessor
  .ok final.toHandle

/-- The media of a self-contained stream. -/
def decode (stream : Bitstream) : Except CodecError RawMedia := do
  let (decoded, _) ← decodeFresh stream .notSelfContained
  .ok decoded.flatten

/-- Encodes a chunk as a continuation of a state, given its own self-contained encoding. -/
def encodeGivenState (codec : Simulated) (raw : RawChunk) (predecessor : StateHandle)
    (predictor : Bitstream) : Except CodecError Encoded := do
  let pixels ← codec.frames raw
  let predictor ← reading (Stream.parse predictor.bytes)
  if predictor.entryHash.isSome then .error (.stateMismatch .predictorNotFresh)
  else
    codec.checkPredictor raw pixels predictor
    codec.continueFrom pixels predecessor

/-- Encodes a chunk as a continuation of the new state, given its encoding against the old one,
which must reproduce the chunk. -/
def rebase (codec : Simulated) (raw : RawChunk) (newState oldState : StateHandle)
    (predictor : Bitstream) : Except CodecError Encoded := do
  let pixels ← codec.frames raw
  let predictor ← reading (Stream.parse predictor.bytes)
  if predictor.entryHash ≠ some (minihash oldState) then
    .error (.stateMismatch (.foreignOldState raw.index))
  else
    codec.checkPredictor raw pixels predictor
    let state ← reading (DecoderState.parse oldState)
    let (decoded, _) ← predictor.decodeFrom state
    if decoded ≠ pixels then .error (.incompatible (.notReproduced raw.index))
    else codec.continueFrom pixels newState

/-- A self-contained prefix shows the state it leaves; a suffix that records another one does not
continue it. -/
def checkContinuation (head tail : Stream) : Except CodecError Unit :=
  match head.entryHash, tail.entryHash with
  | none, some expected => do
    let (_, final) ← head.decodeFrom .fresh
    if minihash final.toHandle = expected then .ok ()
    else .error (.stateMismatch .discontinuousSuffix)
  | _, _ => .ok ()

/-- The frames of both streams under the header of the first. -/
def merge (head tail : Bitstream) : Except CodecError Bitstream := do
  let head ← reading (Stream.parse head.bytes)
  let tail ← reading (Stream.parse tail.bytes)
  if head.frameSize ≠ tail.frameSize then .error (.incompatible .mergedFrameSizes)
  else
    checkContinuation head tail
    .ok (Stream.toBitstream ⟨head.frameSize, head.entryHash, head.frames ++ tail.frames⟩)

/-- The simulated codec as a codec. -/
def codec (simulated : Simulated) : Codec where
  encode := simulated.encode
  decodeState := decodeState
  encodeGivenState := simulated.encodeGivenState
  rebase := simulated.rebase
  merge := merge
  decode := decode

end Simulated

end Transcode
