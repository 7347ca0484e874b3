/-
**A whole run as data.** A `Flow` is a run under way: it asks questions of its own, looks at the
cancellation token, and passes through stages whose tasks run side by side. As with tasks, several
flows may share one world, and any of them may take the next step.

* `Flow.ofTask` is the part of a run that has no stages.
* `Flow.run` takes a run to its end by the schedule of `Pool.drive`.
-/
import Transcode.Schedule.Pool

namespace Transcode

/-- A run under way. -/
inductive Flow (I : Interface) (α : Type) where
  | done (value : α)
  | ask (request : I.Request) (next : I.Answer request → Flow I α)
  /-- Looks whether the cancellation token has fired. -/
  | checkpoint (next : Bool → Flow I α)
  /-- A stage, and what follows its result. -/
  | stage (pool : Pool I) (next : Except RunError StageSummary → Flow I α)

namespace Flow

variable {I : Interface} {σ α β : Type}

/-- The first run, then the one that its value selects. -/
def bind (flow : Flow I α) (after : α → Flow I β) : Flow I β :=
  match flow with
  | done value => after value
  | ask request next => ask request fun answer => bind (next answer) after
  | checkpoint next => checkpoint fun cancelled => bind (next cancelled) after
  | stage pool next => stage pool fun result => bind (next result) after

instance : Monad (Flow I) where
  pure := done
  bind := bind

/-- A task as a run without stages. -/
def ofTask : Task I α → Flow I α
  | .done value => done value
  | .ask request next => ask request fun answer => ofTask (next answer)

/-- Whether the cancellation token has fired. -/
def isCancelled : Flow I Bool :=
  checkpoint done

/-- A stage from its start. -/
def ofPool (pool : Pool I) : Flow I (Except RunError StageSummary) :=
  stage pool done

/-- Takes a run to its end. -/
def run (service : Service I σ) : Flow I α → World σ → α × World σ
  | done value, world => (value, world)
  | ask request next, world =>
    let (answer, world) := world.serve service request
    run service (next answer) world
  | checkpoint next, world => run service (next world.cancelled) world
  | stage pool next, world =>
    let (pool, world) := pool.drive service world
    run service (next pool.result) world

theorem run_ofTask (service : Service I σ) (task : Task I α) (world : World σ) :
    (ofTask task).run service world = task.run service world := by
  induction task generalizing world with
  | done value => rfl
  | ask request next ih => exact ih _ _

theorem run_bind (service : Service I σ) (flow : Flow I α) (after : α → Flow I β)
    (world : World σ) :
    (flow.bind after).run service world =
      (after (flow.run service world).1).run service (flow.run service world).2 := by
  induction flow generalizing world with
  | done value => rfl
  | ask request next ih => exact ih _ _
  | checkpoint next ih => exact ih _ _
  | stage pool next ih => exact ih _ _

end Flow

end Transcode
