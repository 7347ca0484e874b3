/-
**A whole run**: the barrier stages in order, then the chain.

* `Run.stagePlan` is one barrier stage. All that its tasks read must be stored, or nothing starts.
* `Run.plan` is the run. Between the last barrier and the chain it looks at the cancellation
  token.
-/
import Transcode.Run.Barrier
import Transcode.Run.Chain

namespace Transcode.Run

/-- The result of a run. -/
structure Result where
  source : String
  count : Nat
  stages : List StageSummary
  finalKey : Key
  output : Bitstream

variable (run : Run)

/-- The pool of a barrier stage over all chunks. -/
def stagePool (stage : Stage) : Pool interface :=
  Pool.start stage run.indices fun chunk => do
    let result ← (run.barrierTask stage chunk).run
    pure (Ending.ofResult stage result)

/-- One barrier stage. -/
def stagePlan (stage : Stage) : Plan StageSummary := do
  if stage.isSerial then throw (.internal (.serialStage stage))
  if let some key ← Plan.ofJob (firstMissing (stage.barrierInputs run.count)) then
    throw (.notFound key)
  ExceptT.mk (Flow.ofPool (run.stagePool stage))

/-- Barrier stages one after another. -/
def stagePlans : List Stage → Plan (List StageSummary)
  | [] => pure []
  | stage :: rest => do
    let summary ← run.stagePlan stage
    let summaries ← stagePlans rest
    pure (summary :: summaries)

/-- The run from its first stage to the finished stream. -/
def plan : Plan Result :=
  match run.count with
  | 0 => throw (.internal .noChunks)
  | last + 1 => do
    let summaries ← run.stagePlans Stage.barriers
    Plan.checkCancelled .rebase
    let chained ← run.chain
    pure {
      source := run.source
      count := last + 1
      stages := summaries ++ [chained.rebase, chained.merge]
      finalKey := ⟨last, .merged⟩
      output := chained.output }

end Transcode.Run
