/-
**Streams of the simulated codec.**

* `Stream.toBytes` writes a stream: the mark `SIMF`, the frame size, a flag and a hash for the
  decoder state it starts from, the number of frames, and the frames. `Stream.parse` reads it back
  and ignores what follows the last frame.
* `Stream.decodeFrom` decodes all frames from a given decoder state; an inter frame is the
  difference to the frame before it.
-/
import Transcode.Codec.DecoderState

namespace Transcode

/-- How a frame is stored: as it is, or as the difference to the frame before. -/
inductive FrameKind where
  | key
  | inter
  deriving DecidableEq, Repr

namespace FrameKind

/-- The byte that announces a frame of this kind. -/
def code : FrameKind → UInt8
  | key => 0
  | inter => 1

/-- The kind that a byte announces. -/
def ofCode? : UInt8 → Option FrameKind
  | 0 => some key
  | 1 => some inter
  | _ => none

end FrameKind

/-- A stored frame. -/
structure Frame where
  kind : FrameKind
  payload : Bytes
  deriving DecidableEq, Repr

/-- A stored stream. Without an entry hash it starts from a fresh decoder. -/
structure Stream where
  frameSize : UInt32
  entryHash : Option UInt32
  frames : List Frame
  deriving DecidableEq, Repr

/-! ### Stored form -/

/-- The stored form of a frame. -/
def Frame.toBytes (frame : Frame) : Bytes :=
  frame.kind.code :: Bytes.le32 (.ofNat frame.payload.length) ++ frame.payload

namespace Stream

/-- The mark at the start of a stored stream, the letters `SIMF`. -/
def mark : Bytes :=
  [0x53, 0x49, 0x4d, 0x46]

/-- The stored form of the entry hash: a flag and four bytes. -/
def entryBytes : Option UInt32 → Bytes
  | some hash => 1 :: Bytes.le32 hash
  | none => 0 :: Bytes.le32 0

/-- The stored form. -/
def toBytes (stream : Stream) : Bytes :=
  mark ++ Bytes.le32 stream.frameSize ++ entryBytes stream.entryHash ++
    Bytes.le32 (.ofNat stream.frames.length) ++ stream.frames.flatMap Frame.toBytes

/-- The stream as an artifact. -/
def toBitstream (stream : Stream) : Bitstream :=
  ⟨stream.toBytes⟩

/-- Frame size, entry hash and frame count, and what follows the header. -/
def takeHeader? (bytes : Bytes) : Option (UInt32 × Option UInt32 × UInt32 × Bytes) := do
  let rest ← mark.isPrefixOf? bytes
  let (frameSize, rest) ← Bytes.takeWord32? rest
  let flag :: rest := rest | none
  let (hash, rest) ← Bytes.takeWord32? rest
  let (count, rest) ← Bytes.takeWord32? rest
  some (frameSize, if flag = 0 then none else some hash, count, rest)

/-- One frame from the front. A length that points beyond the end is noticed before an unknown
kind. -/
def takeFrame : Bytes → Except Malformation (Frame × Bytes)
  | [] => .error .truncatedFrameHeader
  | code :: rest =>
    match Bytes.takeWord32? rest with
    | none => .error .truncatedFrameHeader
    | some (length, rest) =>
      match Bytes.splitExact? length.toNat rest with
      | none => .error .truncatedFrame
      | some (payload, rest) =>
        match FrameKind.ofCode? code with
        | none => .error (.unknownFrameType code)
        | some kind => .ok (⟨kind, payload⟩, rest)

/-- The given number of frames from the front. -/
def takeFrames : Nat → Bytes → Except Malformation (List Frame)
  | 0, _ => .ok []
  | count + 1, bytes => do
    let (frame, rest) ← takeFrame bytes
    let frames ← takeFrames count rest
    .ok (frame :: frames)

/-- Reads a stored stream. -/
def parse (bytes : Bytes) : Except Malformation Stream :=
  match takeHeader? bytes with
  | none => .error .missingStreamHeader
  | some (frameSize, entryHash, count, rest) => do
    let frames ← takeFrames count.toNat rest
    .ok ⟨frameSize, entryHash, frames⟩

/-! ### Decoding -/

/-- The decoded form of a frame that follows the given one. -/
def decodeFrame (frame : Frame) (previous : Bytes) : Bytes :=
  match frame.kind with
  | .key => frame.payload
  | .inter => Bytes.mix frame.payload previous

/-- The decoded forms of frames that follow the given one. -/
def decodeFrames : List Frame → Bytes → List Bytes
  | [], _ => []
  | frame :: rest, previous =>
    let pixels := decodeFrame frame previous
    pixels :: decodeFrames rest pixels

/-- Whether the stream claims to be self-contained and yet begins with a difference. -/
def opensWithInterFrame (stream : Stream) : Bool :=
  stream.entryHash.isNone && (stream.frames.head?.map Frame.kind) == some .inter

/-- Decodes all frames from the given state; the frames, and where the decoder ends. -/
def decodeFrom (stream : Stream) (state : DecoderState) :
    Except CodecError (List Bytes × DecoderState) :=
  if stream.opensWithInterFrame && state.framesDecoded = 0 then
    .error (.malformed .opensWithInterFrame)
  else do
    let decoded := decodeFrames stream.frames state.lastFrame
    let final ← state.advanceAll decoded
    .ok (decoded, final)

end Stream

end Transcode
