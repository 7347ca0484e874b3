/-
**A pool of tasks** runs one stage over many chunks with bounded parallelism.

* `Pool.dispatch` starts the next chunk: it needs a free permit, and neither a failed task of the
  stage nor the run-level token may stand in the way.
* `Pool.advance` lets one running task take its next step; a task that ends gives its permit back,
  and one that ends in an error stops further dispatch (`Pool.conclude`). A panic is noticed only
  when the results are gathered.
* `Pool.result` gathers them: the first error in the order in which tasks ended, or `cancelled`
  when some chunk was never started, or the counts.
* `Pool.drive` is one schedule: dispatch while possible, then run the task that has waited
  longest to its end, and so on until nothing runs.
-/
import Transcode.Error.Run
import Transcode.Schedule.Task

namespace Transcode

/-- What a task did for its chunk. -/
inductive Outcome where
  /-- The outputs were computed and stored. -/
  | completed
  /-- The outputs were there before. -/
  | skipped
  deriving DecidableEq, Repr

/-- How a task of a pool ended. -/
inductive Ending where
  | finished (outcome : Outcome)
  | failed (error : RunError)
  | panicked
  deriving DecidableEq, Repr

/-- The ending of a task of the stage that reports an outcome, fails or panics. -/
def Ending.ofResult (stage : Stage) : Except RunError Outcome → Ending
  | .ok outcome => finished outcome
  | .error error => if error = .internal (.taskPanicked stage) then panicked else failed error

/-- How many chunks a stage computed and how many it skipped. -/
structure StageSummary where
  stage : Stage
  completed : Nat
  skipped : Nat
  deriving DecidableEq, Repr

/-- A stage under way. -/
structure Pool (I : Interface) where
  stage : Stage
  /-- The task of each chunk. -/
  work : ChunkIndex → Task I Ending
  /-- Chunks that are not started yet, in order. -/
  waiting : List ChunkIndex
  /-- Started tasks that have not ended, in the order of their start. -/
  running : List (ChunkIndex × Task I Ending)
  /-- Ended tasks, in the order of their ends. -/
  ended : List (ChunkIndex × Ending)
  /-- Whether a task of the stage has failed, so that no other is started. -/
  halted : Bool

namespace Pool

variable {I : Interface} {σ : Type}

/-- A stage over the given chunks, before anything is started. -/
def start (stage : Stage) (chunks : List ChunkIndex) (work : ChunkIndex → Task I Ending) :
    Pool I :=
  ⟨stage, work, chunks, [], [], false⟩

/-! ### Single steps -/

/-- Starts the next chunk, if one waits, a permit is free and nothing stops the stage. -/
def dispatch (pool : Pool I) (world : World σ) : Option (Pool I × World σ) :=
  match pool.waiting with
  | [] => none
  | chunk :: rest =>
    if pool.halted || world.cancelled || world.free = 0 then none
    else
      some ({ pool with waiting := rest, running := pool.running ++ [(chunk, pool.work chunk)] },
        world.acquire)

/-- Records how a task ended. An error halts the stage before the permit is given back. -/
def conclude (pool : Pool I) (chunk : ChunkIndex) (ending : Ending) (world : World σ) :
    Pool I × World σ :=
  ({ pool with
      ended := pool.ended ++ [(chunk, ending)]
      halted := pool.halted || (match ending with | .failed _ => true | _ => false) },
    world.release)

/-- Lets the running task at the given place ask its next question, or end. -/
def advance (pool : Pool I) (service : Service I σ) (place : Nat) (world : World σ) :
    Option (Pool I × World σ) :=
  match pool.running[place]? with
  | none => none
  | some (chunk, .done ending) =>
    some ({ pool with running := pool.running.eraseIdx place }.conclude chunk ending world)
  | some (chunk, .ask request next) =>
    let (answer, world) := world.serve service request
    some ({ pool with running := pool.running.set place (chunk, next answer) }, world)

/-- Whether no chunk will be started any more. -/
def isClosed (pool : Pool I) (world : World σ) : Bool :=
  pool.waiting.isEmpty || pool.halted || world.cancelled

/-- Whether the stage is over. -/
def isSettled (pool : Pool I) (world : World σ) : Bool :=
  pool.isClosed world && pool.running.isEmpty

/-! ### Results -/

/-- What the ending contributes to the failure of the stage. -/
def failure? (stage : Stage) : Ending → Option RunError
  | .finished _ => none
  | .failed error => some error
  | .panicked => some (.internal (.taskPanicked stage))

/-- How many tasks ended with the outcome. -/
def count (pool : Pool I) (outcome : Outcome) : Nat :=
  pool.ended.countP fun (_, ending) => ending = .finished outcome

/-- The result of a stage whose tasks have all ended. -/
def result (pool : Pool I) : Except RunError StageSummary :=
  match pool.ended.findSome? fun (_, ending) => failure? pool.stage ending with
  | some error => .error error
  | none =>
    if pool.waiting.isEmpty then
      .ok ⟨pool.stage, pool.count .completed, pool.count .skipped⟩
    else .error (.cancelled pool.stage)

/-! ### A schedule -/

theorem waiting_of_dispatch {pool pool' : Pool I} {world world' : World σ}
    (started : pool.dispatch world = some (pool', world')) :
    pool.waiting.length = pool'.waiting.length + 1 ∧
      pool'.running.length = pool.running.length + 1 := by
  unfold dispatch at started
  split at started
  · cases started
  · next chunk rest shape =>
    split at started
    · cases started
    · cases started
      simp [shape]

/-- Starts chunks while that is possible. -/
def dispatchAll (pool : Pool I) (world : World σ) : Pool I × World σ :=
  match _started : pool.dispatch world with
  | none => (pool, world)
  | some (pool', world') => dispatchAll pool' world'
  termination_by pool.waiting.length
  decreasing_by
    have moved := waiting_of_dispatch _started
    omega

/-- Starting chunks only moves them from waiting to running. -/
theorem length_dispatchAll (pool : Pool I) (world : World σ) :
    (pool.dispatchAll world).1.waiting.length + (pool.dispatchAll world).1.running.length =
      pool.waiting.length + pool.running.length := by
  fun_induction dispatchAll pool world with
  | case1 => rfl
  | case2 pool world pool' world' started ih =>
    have moved := waiting_of_dispatch started
    omega

/-- Runs started tasks to their ends, oldest first, starting others as soon as that is
possible. -/
def drive (pool : Pool I) (service : Service I σ) (world : World σ) : Pool I × World σ :=
  let started := pool.dispatchAll world
  match oldest : started.1.running with
  | [] => started
  | (chunk, task) :: rest =>
    let ended := task.run service started.2
    let concluded := { started.1 with running := rest }.conclude chunk ended.1 ended.2
    drive concluded.1 service concluded.2
  termination_by pool.waiting.length + pool.running.length
  decreasing_by
    have moved := length_dispatchAll pool world
    rw [oldest] at moved
    simp only [List.length_cons] at moved
    simp only [conclude]
    omega

end Pool

end Transcode
