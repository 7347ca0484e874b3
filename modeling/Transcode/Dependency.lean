/-
**Dependencies between chunks.** A task of a stage reads and writes fixed slots of its own chunk
and of the chunk before it, so the whole order of work follows from `Stage.inputs` and
`Stage.outputs`.

* `Stage.barrierInputs` collects what must be stored before a stage over several chunks starts.
* `chainInputs` is what the serial chain expects from the barrier stages.
* `Progress` is the view of a set of stored keys as work done and work pending.
-/
import Transcode.Artifact

namespace Transcode

namespace Stage

/-- The slots that the task of a chunk reads. Raw chunks lie outside the ledger. -/
def inputs (stage : Stage) (chunk : ChunkIndex) : List Key :=
  match stage, chunk with
  | baselineEncode, _ => []
  | stateExtraction, _ => [⟨chunk, .baseline⟩]
  | encodeGivenStateV0, 0 | encodeGivenStateV1, 0 => [⟨0, .baseline⟩, ⟨0, .decodeState⟩]
  | encodeGivenStateV0, previous + 1 => [⟨previous, .decodeState⟩, ⟨chunk, .baseline⟩]
  | encodeGivenStateV1, previous + 1 => [⟨previous, .encodeV0State⟩, ⟨chunk, .baseline⟩]
  | rebase, 0 => [⟨0, .encodeV1State⟩]
  | rebase, previous + 1 =>
    [⟨previous, .rebasedState⟩, ⟨previous, .encodeV0State⟩, ⟨chunk, .encodeV1⟩]
  | merge, 0 => [⟨0, .encodeV1⟩]
  | merge, previous + 1 => [⟨previous, .merged⟩, ⟨chunk, .rebased⟩]

/-- The slots that the task of a chunk writes. The first chunk takes over its own encoder state
and has no rebased stream. -/
def outputs (stage : Stage) (chunk : ChunkIndex) : List Key :=
  match stage, chunk with
  | baselineEncode, _ => [⟨chunk, .baseline⟩]
  | stateExtraction, _ => [⟨chunk, .decodeState⟩]
  | encodeGivenStateV0, _ => [⟨chunk, .encodeV0⟩, ⟨chunk, .encodeV0State⟩]
  | encodeGivenStateV1, _ => [⟨chunk, .encodeV1⟩, ⟨chunk, .encodeV1State⟩]
  | rebase, 0 => [⟨0, .rebasedState⟩]
  | rebase, _ + 1 => [⟨chunk, .rebased⟩, ⟨chunk, .rebasedState⟩]
  | merge, _ => [⟨chunk, .merged⟩]

/-- Every slot that the tasks of the first `count` chunks read. -/
def barrierInputs (stage : Stage) (count : Nat) : KeySet :=
  KeySet.ofList ((List.range count).flatMap stage.inputs)

/-- A task writes slots of its own stage and chunk only. -/
theorem stage_and_chunk_of_mem_outputs {stage : Stage} {chunk : ChunkIndex} {key : Key}
    (written : key ∈ stage.outputs chunk) : key.kind.stage = stage ∧ key.chunk = chunk := by
  cases stage <;> cases chunk <;> simp_all [outputs] <;> rcases written with rfl | rfl <;>
    simp [Kind.stage]

end Stage

/-- What the serial chain over `count` chunks expects the barrier stages to have stored. -/
def chainInputs (count : Nat) : KeySet :=
  KeySet.ofList
    ((Stage.rebase.barrierInputs count ++ Stage.merge.barrierInputs count).filter
      fun key => !key.kind.stage.isSerial)

/-! ### Progress -/

/-- The stored keys of a source, seen as the progress of a run over `count` chunks. -/
structure Progress where
  existing : KeySet
  count : Nat

namespace Progress

/-- Whether the chunk has all outputs of the stage. -/
def isDone (progress : Progress) (stage : Stage) (chunk : ChunkIndex) : Bool :=
  (stage.outputs chunk).all fun key => progress.existing.contains key

/-- The chunks that lack an output of the stage, in order. -/
def pending (progress : Progress) (stage : Stage) : List ChunkIndex :=
  (List.range progress.count).filter fun chunk => !progress.isDone stage chunk

/-- The first stage with work left. -/
def nextStage? (progress : Progress) : Option Stage :=
  Stage.all.find? fun stage => progress.pending stage ≠ []

/-- The slot of the finished stream, once it is filled. -/
def finalOutput? (progress : Progress) : Option Key :=
  match progress.count with
  | 0 => none
  | last + 1 =>
    if progress.existing.contains ⟨last, .merged⟩ then some ⟨last, .merged⟩ else none

end Progress

end Transcode
