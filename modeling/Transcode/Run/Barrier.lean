/-
**Barrier tasks.** One task of a barrier stage handles one chunk: it skips if its outputs are
stored, and otherwise reads its inputs, calls the codec and fills its slots.

* The first chunk starts with a key frame and is final as it is, so both given-state stages copy
  its baseline encoding and decoder state.
* Every other chunk is encoded as a continuation of the chunk before it: of its decoder state in
  the first lineage, and of the state that the first lineage left in the second.
-/
import Transcode.Dependency
import Transcode.Run.Basic

namespace Transcode.Run

/-- One of the two lineages of encoder state: the slots it fills, and the slot of the state that
each chunk continues. -/
structure Lineage where
  stage : Stage
  stream : Kind
  state : Kind
  predecessor : Kind

namespace Lineage

/-- Continues the decoder states of the baseline encoding. -/
def v0 : Lineage :=
  ⟨.encodeGivenStateV0, .encodeV0, .encodeV0State, .decodeState⟩

/-- Continues the encoder states of the first lineage. -/
def v1 : Lineage :=
  ⟨.encodeGivenStateV1, .encodeV1, .encodeV1State, .encodeV0State⟩

end Lineage

variable (run : Run)

/-- Fills the two slots of a lineage. -/
def storeLineage (lineage : Lineage) (chunk : ChunkIndex) (encoded : Encoded) : Job Unit := do
  run.store ⟨chunk, lineage.stream⟩ (.bitstream encoded.stream)
  run.store ⟨chunk, lineage.state⟩ (.state encoded.state)

/-- The baseline encoding of a chunk. -/
def encodeBaseline (chunk : ChunkIndex) : Job Unit := do
  let raw ← Job.ofExcept (run.raw chunk)
  let stream ← Job.codec (.encode raw) (.ofCodec chunk .baselineEncode)
  run.store ⟨chunk, .baseline⟩ (.bitstream stream)

/-- The decoder state that the baseline encoding leaves. -/
def extractState (chunk : ChunkIndex) : Job Unit := do
  let baseline ← bitstream chunk .baseline
  let state ← Job.codec (.decodeState baseline) (.ofCodec chunk .stateExtraction)
  run.store ⟨chunk, .decodeState⟩ (.state state)

/-- A chunk in one of the lineages. -/
def encodeLineage (lineage : Lineage) : ChunkIndex → Job Unit
  | 0 => do
    let baseline ← bitstream 0 .baseline
    let state ← state 0 .decodeState
    run.storeLineage lineage 0 ⟨baseline, state⟩
  | previous + 1 => do
    let chunk := previous + 1
    let predecessor ← state previous lineage.predecessor
    let predictor ← bitstream chunk .baseline
    let raw ← Job.ofExcept (run.raw chunk)
    let encoded ←
      Job.codec (.encodeGivenState raw predecessor predictor) (.ofCodec chunk lineage.stage)
    run.storeLineage lineage chunk encoded

/-- What the task of a stage does when its outputs are not there. -/
def compute (stage : Stage) (chunk : ChunkIndex) : Job Unit :=
  match stage with
  | .baselineEncode => run.encodeBaseline chunk
  | .stateExtraction => run.extractState chunk
  | .encodeGivenStateV0 => run.encodeLineage .v0 chunk
  | .encodeGivenStateV1 => run.encodeLineage .v1 chunk
  | .rebase | .merge => throw (.internal (.notABarrier stage))

/-- The task of a barrier stage for one chunk. -/
def barrierTask (stage : Stage) (chunk : ChunkIndex) : Job Outcome := do
  if ← run.canSkip (stage.outputs chunk) then pure .skipped
  else
    run.compute stage chunk
    pure .completed

end Transcode.Run
