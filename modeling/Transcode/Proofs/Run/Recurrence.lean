/-
**The stage recurrence**: what a run over given chunks is to store, slot by slot.

* A `Row` holds the artifacts of one chunk. `Row.Opens` and `Row.Continues` say how they follow from
  the raw chunk and from the row before; the two lineages of encoder state stay apart.
* `Recurrence` says so of all chunks of a run. `canonical` is the map from keys to artifacts that
  such rows describe, and `runKeys` lists its keys: nine for each chunk but the first, which has no
  rebased stream (`length_runKeys`).
-/
import Mathlib.Data.List.Nodup
import Transcode.Codec.Basic
import Transcode.Dependency

namespace Transcode

/-- The artifacts of one chunk. -/
structure Row where
  baseline : Bitstream
  decoded : StateHandle
  v0 : Encoded
  v1 : Encoded
  rebased : Encoded
  merged : Bitstream

namespace Row

/-- What the row puts into a slot of its chunk. The first chunk has no rebased stream. -/
def artifact? (row : Row) : Key → Option Artifact
  | ⟨_, .baseline⟩ => some (.bitstream row.baseline)
  | ⟨_, .decodeState⟩ => some (.state row.decoded)
  | ⟨_, .encodeV0⟩ => some (.bitstream row.v0.stream)
  | ⟨_, .encodeV0State⟩ => some (.state row.v0.state)
  | ⟨_, .encodeV1⟩ => some (.bitstream row.v1.stream)
  | ⟨_, .encodeV1State⟩ => some (.state row.v1.state)
  | ⟨0, .rebased⟩ => none
  | ⟨_ + 1, .rebased⟩ => some (.bitstream row.rebased.stream)
  | ⟨_, .rebasedState⟩ => some (.state row.rebased.state)
  | ⟨_, .merged⟩ => some (.bitstream row.merged)

/-- The row of the first chunk: its own encoding is final. -/
structure Opens (row : Row) (codec : Codec) (raw : RawChunk) : Prop where
  baseline : codec.encode raw = .ok row.baseline
  decoded : codec.decodeState row.baseline = .ok row.decoded
  v0 : row.v0 = ⟨row.baseline, row.decoded⟩
  v1 : row.v1 = ⟨row.baseline, row.decoded⟩
  rebasedState : row.rebased.state = row.v1.state
  merged : row.merged = row.v1.stream

/-- The row of a chunk after another. The first lineage continues decoder states, the second the
states of the first; the chunk is rebased from the first lineage onto the final state. -/
structure Continues (row : Row) (codec : Codec) (raw : RawChunk) (previous : Row) : Prop where
  baseline : codec.encode raw = .ok row.baseline
  decoded : codec.decodeState row.baseline = .ok row.decoded
  v0 : codec.encodeGivenState raw previous.decoded row.baseline = .ok row.v0
  v1 : codec.encodeGivenState raw previous.v0.state row.baseline = .ok row.v1
  rebased : codec.rebase raw previous.rebased.state previous.v0.state row.v1.stream =
    .ok row.rebased
  merged : codec.merge previous.merged row.rebased.stream = .ok row.merged

theorem artifact?_fits {row : Row} {key : Key} {artifact : Artifact}
    (found : row.artifact? key = some artifact) : artifact.fits key = true := by
  obtain ⟨chunk, kind⟩ := key
  cases kind <;> cases chunk <;> cases found <;> rfl

theorem artifact?_isSome (row : Row) {key : Key} :
    (row.artifact? key).isSome ↔ key ≠ ⟨0, .rebased⟩ := by
  obtain ⟨chunk, kind⟩ := key
  cases kind <;> cases chunk <;> simp [artifact?]

end Row

/-- **The stage recurrence** over the chunks of a run: the codec succeeds on every call, and the
rows hold what it yields. -/
structure Recurrence (codec : Codec) (chunks : List RawChunk) (rows : ChunkIndex → Row) : Prop where
  opens : ∀ raw, chunks[0]? = some raw → (rows 0).Opens codec raw
  continues : ∀ previous raw, chunks[previous + 1]? = some raw →
    (rows (previous + 1)).Continues codec raw (rows previous)

namespace Recurrence

variable {codec : Codec} {chunks : List RawChunk} {rows : ChunkIndex → Row}

/-- The recurrence of a source is the recurrence of its first chunks. -/
theorem take (recurrence : Recurrence codec chunks rows) (count : Nat) :
    Recurrence codec (chunks.take count) rows where
  opens raw found := by
    rw [List.getElem?_take] at found
    split at found
    · exact recurrence.opens raw found
    · cases found
  continues previous raw found := by
    rw [List.getElem?_take] at found
    split at found
    · exact recurrence.continues previous raw found
    · cases found

theorem baseline (recurrence : Recurrence codec chunks rows) {chunk : ChunkIndex} {raw : RawChunk}
    (found : chunks[chunk]? = some raw) : codec.encode raw = .ok (rows chunk).baseline := by
  cases chunk with
  | zero => exact (recurrence.opens raw found).baseline
  | succ previous => exact (recurrence.continues previous raw found).baseline

theorem decoded (recurrence : Recurrence codec chunks rows) {chunk : ChunkIndex} {raw : RawChunk}
    (found : chunks[chunk]? = some raw) :
    codec.decodeState (rows chunk).baseline = .ok (rows chunk).decoded := by
  cases chunk with
  | zero => exact (recurrence.opens raw found).decoded
  | succ previous => exact (recurrence.continues previous raw found).decoded

end Recurrence

/-! ### An instance -/

/-- A codec that never fails and writes its operands down one after another. -/
def Codec.verbatim : Codec where
  encode raw := .ok ⟨raw.data⟩
  decodeState stream := .ok ⟨stream.bytes⟩
  encodeGivenState raw predecessor _ := .ok ⟨⟨raw.data ++ predecessor.bytes⟩, ⟨raw.data⟩⟩
  rebase raw newState _ predictor := .ok ⟨predictor, ⟨raw.data ++ newState.bytes⟩⟩
  merge head tail := .ok ⟨head.bytes ++ tail.bytes⟩
  decode stream := .ok stream.bytes

/-- Two chunks of one octet each. -/
def twoChunks : List RawChunk :=
  [⟨0, "00.y4m", [1]⟩, ⟨1, "01.y4m", [2]⟩]

/-- The rows of the two chunks. -/
def twoRows : ChunkIndex → Row
  | 0 => ⟨⟨[1]⟩, ⟨[1]⟩, ⟨⟨[1]⟩, ⟨[1]⟩⟩, ⟨⟨[1]⟩, ⟨[1]⟩⟩, ⟨⟨[1]⟩, ⟨[1]⟩⟩, ⟨[1]⟩⟩
  | _ => ⟨⟨[2]⟩, ⟨[2]⟩, ⟨⟨[2, 1]⟩, ⟨[2]⟩⟩, ⟨⟨[2, 1]⟩, ⟨[2]⟩⟩, ⟨⟨[2, 1]⟩, ⟨[2, 1]⟩⟩, ⟨[1, 2, 1]⟩⟩

theorem recurrence_twoChunks : Recurrence Codec.verbatim twoChunks twoRows where
  opens raw found := by
    cases found
    exact ⟨rfl, rfl, rfl, rfl, rfl, rfl⟩
  continues previous raw found := by
    cases previous with
    | zero =>
      cases found
      exact ⟨rfl, rfl, rfl, rfl, rfl, rfl⟩
    | succ previous => cases found

/-! ### The slots of a run -/

/-- The slots that a run over `count` chunks fills, chunk by chunk. -/
def runKeys (count : Nat) : List Key :=
  (List.range count).flatMap fun chunk => Stage.all.flatMap fun stage => stage.outputs chunk

/-- **The canonical map** of a run over `count` chunks. -/
def canonical (rows : ChunkIndex → Row) (count : Nat) (key : Key) : Option Artifact :=
  if key.chunk < count then (rows key.chunk).artifact? key else none

theorem mem_runKeys {count : Nat} {key : Key} :
    key ∈ runKeys count ↔ ∃ stage chunk, chunk < count ∧ key ∈ Stage.outputs stage chunk := by
  simp only [runKeys, List.mem_flatMap, List.mem_range]
  constructor
  · rintro ⟨chunk, inside, stage, _, written⟩
    exact ⟨stage, chunk, inside, written⟩
  · rintro ⟨stage, chunk, inside, written⟩
    exact ⟨chunk, inside, stage, stage.mem_all, written⟩

/-- A key is written by the stage of its kind, except the rebased stream of the first chunk. -/
theorem mem_outputs_iff {stage : Stage} {chunk : ChunkIndex} {key : Key} :
    key ∈ stage.outputs chunk ↔
      key.kind.stage = stage ∧ key.chunk = chunk ∧ key ≠ ⟨0, .rebased⟩ := by
  obtain ⟨place, kind⟩ := key
  constructor
  · intro written
    obtain ⟨own, here⟩ := Stage.stage_and_chunk_of_mem_outputs written
    refine ⟨own, here, ?_⟩
    rintro ⟨⟩
    simp only at own here
    subst own here
    simp [Stage.outputs, Kind.stage] at written
  · rintro ⟨rfl, rfl, present⟩
    cases kind <;> cases place <;> simp_all [Stage.outputs, Kind.stage]

theorem mem_runKeys_iff {count : Nat} {key : Key} :
    key ∈ runKeys count ↔ key.chunk < count ∧ key ≠ ⟨0, .rebased⟩ := by
  rw [mem_runKeys]
  constructor
  · rintro ⟨stage, chunk, inside, written⟩
    obtain ⟨_, rfl, present⟩ := mem_outputs_iff.mp written
    exact ⟨inside, present⟩
  · rintro ⟨inside, present⟩
    exact ⟨key.kind.stage, key.chunk, inside, mem_outputs_iff.mpr ⟨rfl, rfl, present⟩⟩

theorem mem_runKeys_mono {count larger : Nat} (le : count ≤ larger) {key : Key}
    (mine : key ∈ runKeys count) : key ∈ runKeys larger := by
  obtain ⟨inside, present⟩ := mem_runKeys_iff.mp mine
  exact mem_runKeys_iff.mpr ⟨Nat.lt_of_lt_of_le inside le, present⟩

theorem canonical_isSome {rows : ChunkIndex → Row} {count : Nat} {key : Key} :
    (canonical rows count key).isSome ↔ key ∈ runKeys count := by
  rw [mem_runKeys_iff, canonical]
  split
  · next inside => simp [inside, Row.artifact?_isSome]
  · next outside => simp [outside]

theorem canonical_eq_of_mem {rows : ChunkIndex → Row} {count : Nat} {key : Key}
    (mine : key ∈ runKeys count) : canonical rows count key = (rows key.chunk).artifact? key :=
  if_pos (mem_runKeys_iff.mp mine).1

theorem canonical_eq_none {rows : ChunkIndex → Row} {count : Nat} {key : Key}
    (outside : key ∉ runKeys count) : canonical rows count key = none := by
  rw [← Option.not_isSome_iff_eq_none, canonical_isSome]
  exact outside

theorem nodup_runKeys (count : Nat) : (runKeys count).Nodup := by
  refine List.nodup_flatMap.mpr ⟨fun chunk _ => ?_, ?_⟩
  · cases chunk <;> simp [Stage.all, Stage.barriers, Stage.outputs]
  · refine List.nodup_range.imp fun {first second} differs => ?_
    intro key left right
    obtain ⟨stage, _, written⟩ := List.mem_flatMap.mp left
    obtain ⟨other, _, again⟩ := List.mem_flatMap.mp right
    exact differs ((Stage.stage_and_chunk_of_mem_outputs written).2.symm.trans
      (Stage.stage_and_chunk_of_mem_outputs again).2)

/-- **Nine slots for each chunk**, and one less for the first. -/
theorem length_runKeys (last : Nat) : (runKeys (last + 1)).length = 9 * (last + 1) - 1 := by
  have row (chunk : ChunkIndex) :
      (Stage.all.flatMap fun stage => stage.outputs (chunk + 1)).length = 9 := by
    simp [Stage.all, Stage.barriers, Stage.outputs]
  induction last with
  | zero => decide
  | succ last ih =>
    rw [runKeys, List.range_succ, List.flatMap_append, List.length_append, ← runKeys, ih,
      List.flatMap_singleton, row]
    omega

end Transcode
