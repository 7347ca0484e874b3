/-
**Artifacts.** What the stages of a run leave behind, one slot per chunk and kind.

* `Kind` says which slot; `Kind.payload` whether it holds a bitstream or a decoder state, and
  `Kind.stage` which stage fills it.
* `Key` is a slot of one chunk. Keys are ordered by chunk, then by kind (`Key.le`), and
  `KeySet.ofList` is the ordered list of a set of keys.
* `Artifact` is the stored value; its two payloads are told apart by their type, so a slot can be
  checked against what it declares (`Artifact.fits`).
-/
import Transcode.Chunk
import Transcode.Stage

namespace Transcode

/-- What an artifact is made of. -/
inductive Payload where
  | bitstream
  | state
  deriving DecidableEq, Repr

namespace Payload

/-- The word used for the payload in messages. -/
def name : Payload → String
  | bitstream => "Bitstream"
  | state => "State"

/-- The file extension of the payload. -/
def extension : Payload → String
  | bitstream => "ivf"
  | state => "state"

end Payload

/-- The slots that the stages fill for one chunk. The two lineages of encoder state have slots of
their own, so a dependency can name the one it means. -/
inductive Kind where
  | baseline
  | decodeState
  | encodeV0
  | encodeV0State
  | encodeV1
  | encodeV1State
  | rebased
  | rebasedState
  | merged
  deriving DecidableEq, Repr

namespace Kind

/-- Every kind, in order. -/
def all : List Kind :=
  [baseline, decodeState, encodeV0, encodeV0State, encodeV1, encodeV1State, rebased, rebasedState,
    merged]

/-- The position of the kind in `all`. -/
def rank : Kind → Nat
  | baseline => 0
  | decodeState => 1
  | encodeV0 => 2
  | encodeV0State => 3
  | encodeV1 => 4
  | encodeV1State => 5
  | rebased => 6
  | rebasedState => 7
  | merged => 8

/-- The tag used in file names; a rebased stream and its state share one. -/
def tag : Kind → String
  | baseline => "vpx"
  | decodeState => "dec"
  | encodeV0 => "xc0"
  | encodeV0State => "enc0"
  | encodeV1 => "xc1"
  | encodeV1State => "enc1"
  | rebased | rebasedState => "rebased"
  | merged => "final"

/-- What a slot of this kind holds. -/
def payload : Kind → Payload
  | decodeState | encodeV0State | encodeV1State | rebasedState => .state
  | _ => .bitstream

/-- The stage that fills a slot of this kind. -/
def stage : Kind → Stage
  | baseline => .baselineEncode
  | decodeState => .stateExtraction
  | encodeV0 | encodeV0State => .encodeGivenStateV0
  | encodeV1 | encodeV1State => .encodeGivenStateV1
  | rebased | rebasedState => .rebase
  | merged => .merge

/-- The tag with the extension of the payload. -/
def name (kind : Kind) : String :=
  kind.tag ++ "." ++ kind.payload.extension

/-- The name in structured reports. -/
def identifier : Kind → String
  | baseline => "Baseline"
  | decodeState => "DecodeState"
  | encodeV0 => "EncodeV0"
  | encodeV0State => "EncodeV0State"
  | encodeV1 => "EncodeV1"
  | encodeV1State => "EncodeV1State"
  | rebased => "Rebased"
  | rebasedState => "RebasedState"
  | merged => "Merged"

/-- The kind with that name in structured reports. -/
def ofIdentifier? (text : String) : Option Kind :=
  all.find? fun kind => kind.identifier = text

theorem rank_injective {kind other : Kind} (same : kind.rank = other.rank) : kind = other := by
  cases kind <;> cases other <;> simp_all [rank]

/-- A tag and a payload leave no doubt about the kind. -/
theorem eq_of_tag_of_payload {kind other : Kind} (tags : kind.tag = other.tag)
    (payloads : kind.payload = other.payload) : kind = other := by
  cases kind <;> cases other <;> simp_all [tag, payload]

end Kind

/-! ### Keys -/

/-- A slot of one chunk. -/
structure Key where
  chunk : ChunkIndex
  kind : Kind
  deriving DecidableEq, Repr

namespace Key

/-- The tag and the chunk, as shown in messages. -/
def label (key : Key) : String :=
  key.kind.tag ++ "[" ++ key.chunk.label ++ "]"

/-- Keys are ordered by chunk, then by kind. -/
def lt (key other : Key) : Bool :=
  key.chunk < other.chunk || (key.chunk == other.chunk && key.kind.rank < other.kind.rank)

end Key

/-- A set of keys as the ordered list of its members. -/
abbrev KeySet := List Key

namespace KeySet

/-- Adds a key at its place, unless it is there. -/
def insert (key : Key) : KeySet → KeySet
  | [] => [key]
  | first :: rest =>
    if key = first then first :: rest
    else if key.lt first then key :: first :: rest
    else first :: insert key rest

/-- The set of the listed keys. -/
def ofList (keys : List Key) : KeySet :=
  keys.foldl (fun set key => insert key set) []

/-- The least member that the other set lacks. -/
def firstMissing (required existing : KeySet) : Option Key :=
  required.find? fun key => !existing.contains key

theorem mem_insert {key other : Key} {set : KeySet} :
    other ∈ insert key set ↔ other = key ∨ other ∈ set := by
  induction set with
  | nil => simp [insert]
  | cons first rest ih =>
    unfold insert
    split
    · simp_all
    · split
      · simp
      · simp [ih, or_left_comm]

theorem mem_ofList {key : Key} {keys : List Key} : key ∈ ofList keys ↔ key ∈ keys := by
  suffices ∀ set : KeySet, key ∈ keys.foldl (fun set key => insert key set) set ↔
      key ∈ keys ∨ key ∈ set by simpa [ofList] using this []
  induction keys with
  | nil => simp
  | cons first rest ih => simp [ih, mem_insert, or_left_comm, or_assoc]

end KeySet

/-! ### Values -/

/-- Encoded media of one chunk, or of a merged run of chunks. -/
structure Bitstream where
  bytes : Bytes
  deriving DecidableEq, Repr

/-- The state of a decoder in its stored form. -/
structure StateHandle where
  bytes : Bytes
  deriving DecidableEq, Repr

/-- The output of a stage for one chunk. -/
inductive Artifact where
  | bitstream (stream : Bitstream)
  | state (handle : StateHandle)
  deriving DecidableEq, Repr

namespace Artifact

/-- What the artifact is made of. -/
def payload : Artifact → Payload
  | bitstream _ => .bitstream
  | state _ => .state

/-- The stored form. -/
def bytes : Artifact → Bytes
  | bitstream stream => stream.bytes
  | state handle => handle.bytes

/-- The artifact that the slot of this kind makes of stored bytes. -/
def ofBytes (kind : Kind) (bytes : Bytes) : Artifact :=
  match kind.payload with
  | .bitstream => bitstream ⟨bytes⟩
  | .state => state ⟨bytes⟩

/-- Whether the slot may hold the artifact. -/
def fits (artifact : Artifact) (key : Key) : Bool :=
  artifact.payload = key.kind.payload

/-- The bitstream, if it is one. -/
def bitstream? : Artifact → Option Bitstream
  | bitstream stream => some stream
  | state _ => none

/-- The decoder state, if it is one. -/
def state? : Artifact → Option StateHandle
  | bitstream _ => none
  | state handle => some handle

theorem ofBytes_bytes {artifact : Artifact} {kind : Kind}
    (fit : artifact.payload = kind.payload) : ofBytes kind artifact.bytes = artifact := by
  cases artifact <;> cases kind <;> simp_all [ofBytes, Kind.payload, payload, bytes]

end Artifact

end Transcode
