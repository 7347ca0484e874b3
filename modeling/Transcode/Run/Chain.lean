/-
**The serial chain.** Chunk after chunk is rebased onto the state that its final predecessor left
and merged to the output so far. A `Link` is what one chunk hands to the next.

* `Run.seed` starts the chain from the first chunk, which needs no rebase.
* `Run.extend` takes the chain over one more chunk; `Run.chainStep` does so on its own, with the
  link read back from the ledger.
* `Run.chain` is the whole chain. It looks at the cancellation token before each chunk but the
  first, and a chunk that was begun is always finished.
-/
import Transcode.Dependency
import Transcode.Run.Basic

namespace Transcode.Run

/-- Part of a run that may fail and may pass through stages. -/
abbrev Plan (α : Type) : Type :=
  ExceptT RunError (Flow interface) α

namespace Plan

/-- A part without stages. -/
def ofJob {α : Type} (job : Job α) : Plan α :=
  ExceptT.mk (Flow.ofTask job.run)

/-- Fails when the cancellation token has fired. -/
def checkCancelled (stage : Stage) : Plan Unit :=
  ExceptT.mk (Flow.checkpoint fun cancelled =>
    .done (if cancelled then .error (.cancelled stage) else .ok ()))

end Plan

/-- What the chain hands from one chunk to the next: the final state, and the output so far. -/
structure Link where
  state : StateHandle
  output : Bitstream

/-- What the chain did for one chunk. -/
structure ChainStep where
  link : Link
  rebase : Outcome
  merge : Outcome

/-- The result of a finished chain. -/
structure ChainResult where
  output : Bitstream
  rebase : StageSummary
  merge : StageSummary

/-- How often the outcomes were computed and how often skipped. -/
def tally (stage : Stage) (outcomes : List Outcome) : StageSummary :=
  ⟨stage, outcomes.count .completed, outcomes.count .skipped⟩

variable (run : Run)

/-- Copies an artifact of the first chunk, unless the copy is there. -/
def takeOverState : Job (StateHandle × Outcome) := do
  if ← run.canSkip [⟨0, .rebasedState⟩] then
    let state ← state 0 .rebasedState
    pure (state, .skipped)
  else
    let state ← state 0 .encodeV1State
    run.store ⟨0, .rebasedState⟩ (.state state)
    pure (state, .completed)

/-- The first chunk opens the output as it is, unless it has done so. -/
def takeOverStream : Job (Bitstream × Outcome) := do
  if ← run.canSkip [⟨0, .merged⟩] then
    let output ← bitstream 0 .merged
    pure (output, .skipped)
  else
    let output ← bitstream 0 .encodeV1
    run.store ⟨0, .merged⟩ (.bitstream output)
    pure (output, .completed)

/-- The chain over the first chunk. -/
def seed : Job ChainStep := do
  let (state, rebase) ← run.takeOverState
  let (output, merge) ← run.takeOverStream
  pure ⟨⟨state, output⟩, rebase, merge⟩

/-- Rebases the chunk after `previous` onto the given state. -/
def rebaseOnto (previous : ChunkIndex) (newState : StateHandle) : Job (Encoded × Outcome) := do
  let chunk := previous + 1
  if ← run.canSkip (Stage.rebase.outputs chunk) then
    let stream ← bitstream chunk .rebased
    let state ← state chunk .rebasedState
    pure (⟨stream, state⟩, .skipped)
  else
    let oldState ← state previous .encodeV0State
    let predictor ← bitstream chunk .encodeV1
    let raw ← Job.ofExcept (run.raw chunk)
    let encoded ← Job.codec (.rebase raw newState oldState predictor) (.rebase chunk)
    run.store ⟨chunk, .rebased⟩ (.bitstream encoded.stream)
    run.store ⟨chunk, .rebasedState⟩ (.state encoded.state)
    pure (encoded, .completed)

/-- Appends the rebased stream of a chunk to the output so far. -/
def mergeOnto (chunk : ChunkIndex) (output rebased : Bitstream) : Job (Bitstream × Outcome) := do
  if ← run.canSkip [⟨chunk, .merged⟩] then
    let merged ← bitstream chunk .merged
    pure (merged, .skipped)
  else
    let merged ← Job.codec (.merge output rebased) (.merge chunk)
    run.store ⟨chunk, .merged⟩ (.bitstream merged)
    pure (merged, .completed)

/-- The chain over the chunk after `previous`. -/
def extend (previous : ChunkIndex) (link : Link) : Job ChainStep := do
  let (encoded, rebase) ← run.rebaseOnto previous link.state
  let (output, merge) ← run.mergeOnto (previous + 1) link.output encoded.stream
  pure ⟨⟨encoded.state, output⟩, rebase, merge⟩

/-- The chain over one chunk, on its own. The chunk before it must have been through the chain. -/
def chainStep : ChunkIndex → Job ChainStep
  | 0 => run.seed
  | previous + 1 => do
    let state ← state previous .rebasedState
    let output ← bitstream previous .merged
    run.extend previous ⟨state, output⟩

/-- The chain over the next `remaining` chunks after `previous`; the steps in order. -/
def chainFrom (previous : ChunkIndex) (link : Link) : Nat → Plan (List ChainStep)
  | 0 => pure []
  | remaining + 1 => do
    Plan.checkCancelled .rebase
    let step ← Plan.ofJob (run.extend previous link)
    let rest ← chainFrom (previous + 1) step.link remaining
    pure (step :: rest)

/-- The whole chain, resuming from what the ledger holds. -/
def chain : Plan ChainResult := do
  if let some key ← Plan.ofJob (firstMissing (chainInputs run.count)) then
    throw (.notFound key)
  let first ← Plan.ofJob run.seed
  let rest ← run.chainFrom 0 first.link (run.count - 1)
  let steps := first :: rest
  let last := rest.getLastD first
  pure ⟨last.link.output, tally .rebase (steps.map ChainStep.rebase),
    tally .merge (steps.map ChainStep.merge)⟩

end Transcode.Run
