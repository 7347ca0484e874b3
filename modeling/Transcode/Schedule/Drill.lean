/-
**Drills.** A pool whose tasks end as planned, so that what becomes of failures, panics and
cancellations can be observed. Each task reports its start; the chunks that were started are the
state behind the service.
-/
import Transcode.Schedule.Pool

namespace Transcode.Drill

/-- How a task ends. -/
inductive Plan where
  | finish (outcome : Outcome)
  /-- The task fires the cancellation token and completes. -/
  | cancel
  | panic
  | fail (error : RunError)
  deriving DecidableEq, Repr

/-- What tasks of a drill ask for. -/
inductive Notice where
  | started (chunk : ChunkIndex)
  | cancel
  deriving DecidableEq, Repr

/-- Notices need no answer. -/
def interface : Interface where
  Request := Notice
  Answer _ := Unit

/-- Records the chunks that are started, in order. -/
def service : Service interface (List ChunkIndex) where
  reply
    | .started chunk, seen => ⟨(), seen ++ [chunk], false⟩
    | .cancel, seen => ⟨(), seen, true⟩

/-- The task of a chunk. -/
def task (chunk : ChunkIndex) (plan : Plan) : Task interface Ending :=
  .ask (.started chunk) fun () =>
    match plan with
    | .finish outcome => .done (.finished outcome)
    | .cancel => .ask .cancel fun () => .done (.finished .completed)
    | .panic => .done .panicked
    | .fail error => .done (.failed error)

/-- The pool of a stage whose tasks end as planned. A chunk without a plan has nothing to do. -/
def pool (stage : Stage) (plans : List (ChunkIndex × Plan)) : Pool interface :=
  Pool.start stage (plans.map Prod.fst) fun chunk =>
    task chunk ((plans.lookup chunk).getD (.finish .skipped))

/-- Runs a stage, and forgets the starts of earlier ones. -/
def run (stage : Stage) (plans : List (ChunkIndex × Plan)) (world : World (List ChunkIndex)) :
    Except RunError StageSummary × World (List ChunkIndex) :=
  let (pool, world) := (pool stage plans).drive service { world with state := [] }
  (pool.result, world)

end Transcode.Drill
