/-
**Decoder states of the simulated codec**: the last decoded frame and a running frame counter.

* `DecoderState.advance` takes a state over one more frame; a full counter makes the call panic.
* `DecoderState.toHandle` writes a state: the mark `SIMS`, the counter, the length of the frame and
  the frame. `DecoderState.parse` reads exactly such bytes.
* `minihash` is the hash of a stored state that a stream records as the state it starts from.
-/
import Transcode.Codec.Basic

namespace Transcode

/-- Where a decoder stands. -/
structure DecoderState where
  framesDecoded : UInt64
  lastFrame : Bytes
  deriving DecidableEq, Repr

/-- The hash by which streams recognise a stored state. -/
def minihash (handle : StateHandle) : UInt32 :=
  Bytes.fnv1a handle.bytes

namespace DecoderState

/-- The mark at the start of a stored state, the letters `SIMS`. -/
def mark : Bytes :=
  [0x53, 0x49, 0x4d, 0x53]

/-- The state of a decoder that has decoded nothing. -/
def fresh : DecoderState :=
  ⟨0, []⟩

/-- The state after one more frame. Counting is checked: a counter that is full does not come round,
it makes the call panic. -/
def advance (state : DecoderState) (frame : Bytes) : Except CodecError DecoderState :=
  if state.framesDecoded.toNat + 1 < UInt64.size then .ok ⟨state.framesDecoded + 1, frame⟩
  else .error .panicked

/-- The state after frames in a row. -/
def advanceAll (state : DecoderState) (pixels : List Bytes) : Except CodecError DecoderState :=
  pixels.foldlM advance state

/-- The stored form. -/
def toHandle (state : DecoderState) : StateHandle :=
  ⟨mark ++ Bytes.le64 state.framesDecoded ++ Bytes.le32 (.ofNat state.lastFrame.length) ++
    state.lastFrame⟩

/-- The counter, the declared frame length and what follows the header. -/
def takeHeader? (bytes : Bytes) : Option (UInt64 × UInt32 × Bytes) := do
  let rest ← mark.isPrefixOf? bytes
  let (framesDecoded, rest) ← Bytes.takeWord64? rest
  let (length, rest) ← Bytes.takeWord32? rest
  some (framesDecoded, length, rest)

/-- Reads a stored state; the frame must have exactly the declared length. -/
def parse (handle : StateHandle) : Except Malformation DecoderState :=
  match takeHeader? handle.bytes with
  | none => .error .missingStateHeader
  | some (framesDecoded, length, frame) =>
    if frame.length = length.toNat then .ok ⟨framesDecoded, frame⟩
    else .error .frameLengthMismatch

end DecoderState

end Transcode
