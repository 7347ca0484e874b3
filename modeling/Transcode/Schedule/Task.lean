/-
**Tasks as data.** A `Task` is a computation that asks its surroundings questions, one at a time,
and goes on with the answers. What a task does is thus apart from who answers and from what other
tasks ask in between: every question and its answer is one indivisible step.

* `Interface` says which requests there are and what answers they get; a `Service` answers them
  from a state of its own.
* `World` is what all tasks share: the free worker permits, the cancellation token, and the state
  behind the service.
* `Task.run` asks all questions of one task without interruption; `Task.run_bind` runs a task that
  is followed by another.
-/

namespace Transcode

/-- The requests a task may make, and the type of the answer to each. -/
structure Interface where
  Request : Type
  Answer : Request → Type

/-- The answer to a request, and what answering it did. -/
structure Reply (I : Interface) (σ : Type) (request : I.Request) where
  answer : I.Answer request
  state : σ
  /-- Whether answering fired the cancellation token. -/
  cancels : Bool

/-- Answers requests from a state. -/
structure Service (I : Interface) (σ : Type) where
  reply : (request : I.Request) → σ → Reply I σ request

/-- What tasks share. -/
structure World (σ : Type) where
  /-- Worker permits that no task holds. -/
  free : Nat
  /-- Whether the cancellation token has fired. It never comes back. -/
  cancelled : Bool
  /-- The state behind the service. -/
  state : σ

namespace World

variable {I : Interface} {σ : Type}

/-- Has the service answer a request. -/
def serve (world : World σ) (service : Service I σ) (request : I.Request) :
    I.Answer request × World σ :=
  let reply := service.reply request world.state
  (reply.answer,
    { world with cancelled := world.cancelled || reply.cancels, state := reply.state })

/-- Takes one permit. -/
def acquire (world : World σ) : World σ :=
  { world with free := world.free - 1 }

/-- Gives one permit back. -/
def release (world : World σ) : World σ :=
  { world with free := world.free + 1 }

/-- The world of a fresh pool of workers; zero workers count as one. -/
def fresh (concurrency : Nat) (state : σ) : World σ :=
  ⟨max concurrency 1, false, state⟩

end World

/-- A computation that asks requests of the interface and ends in a value. -/
inductive Task (I : Interface) (α : Type) where
  | done (value : α)
  | ask (request : I.Request) (next : I.Answer request → Task I α)

namespace Task

variable {I : Interface} {σ α β : Type}

/-- The first task, then the one that its value selects. -/
def bind (task : Task I α) (after : α → Task I β) : Task I β :=
  match task with
  | done value => after value
  | ask request next => ask request fun answer => bind (next answer) after

instance : Monad (Task I) where
  pure := done
  bind := bind

/-- One request, with its answer as the value. -/
def request (request : I.Request) : Task I (I.Answer request) :=
  ask request done

/-- Asks all questions in a row. -/
def run (service : Service I σ) : Task I α → World σ → α × World σ
  | done value, world => (value, world)
  | ask request next, world =>
    let (answer, world) := world.serve service request
    run service (next answer) world

theorem run_bind (service : Service I σ) (task : Task I α) (after : α → Task I β)
    (world : World σ) :
    (task.bind after).run service world =
      (after (task.run service world).1).run service (task.run service world).2 := by
  induction task generalizing world with
  | done value => rfl
  | ask request next ih => exact ih _ _

end Task

end Transcode
