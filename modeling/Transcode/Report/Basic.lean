/-
**Run reports**: what a finished run did, stage by stage, and how long it took.
-/
import Transcode.Run.Coordinator
import Transcode.Time.Instant

namespace Transcode

/-- What a stage did, and the time it took. -/
structure StageReport where
  summary : StageSummary
  elapsed : Span
  deriving DecidableEq, Repr

/-- What a run did. -/
structure Report where
  source : String
  count : Nat
  startedAt : Instant
  stages : List StageReport
  finalKey : Key
  outputBytes : Nat
  elapsed : Span
  deriving DecidableEq, Repr

namespace Report

/-- The time spent in stages that satisfy the condition. -/
def timeIn (report : Report) (condition : Stage → Bool) : Span :=
  Span.total
    ((report.stages.filter fun stage => condition stage.summary.stage).map StageReport.elapsed)

/-- The time spent in the barrier stages. -/
def parallelTime (report : Report) : Span :=
  report.timeIn fun stage => !stage.isSerial

/-- The time spent in the serial chain. -/
def serialTime (report : Report) : Span :=
  report.timeIn Stage.isSerial

/-- The report on the result of a run, with the time that each stage and the whole run took. -/
def ofResult (result : Run.Result) (startedAt : Instant) (stageTime : Stage → Span)
    (elapsed : Span) : Report where
  source := result.source
  count := result.count
  startedAt := startedAt
  stages := result.stages.map fun summary => ⟨summary, stageTime summary.stage⟩
  finalKey := result.finalKey
  outputBytes := result.output.bytes.length
  elapsed := elapsed

end Report

end Transcode
