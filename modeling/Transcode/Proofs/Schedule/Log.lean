/-
**Requests on record.** The requests of a run, in the order in which they were answered, account for
all that has become of the state; and which requests a run can make at all is read off its tree.

* `Log` relates two states by the requests that lead from the one to the other. A step of a run
  either asks one request or leaves the state alone (`Flow.Step.log`).
* `Task.Asks` and `Flow.Asks` hold of a task and of a run whose every request is allowed, whatever
  the answers. Every step keeps to it (`Flow.Step.asks`).
-/
import Transcode.Proofs.Schedule.Step

namespace Transcode

variable {I : Interface} {σ α β : Type}

/-! ### Requests with their answers -/

/-- **The requests lead from one state to another**, each answered by some service. -/
inductive Log (services : Service I σ → Prop) (state : σ) : List (Exchange I) → σ → Prop
  | nothing : Log services state [] state
  | ask {trace : List (Exchange I)} {middle : σ} (before : Log services state trace middle)
      {service : Service I σ} (serves : services service) (request : I.Request) :
      Log services state (trace ++ [⟨request, (service.reply request middle).answer⟩])
        (service.reply request middle).state

variable {services : Service I σ → Prop}

theorem Log.append {first second third : σ} {trace more : List (Exchange I)}
    (log : Log services first trace second) (rest : Log services second more third) :
    Log services first (trace ++ more) third := by
  induction rest with
  | nothing => rwa [List.append_nil]
  | ask _ serves request ih =>
    rw [← List.append_assoc]
    exact ih.ask serves request

/-- A single request. -/
theorem Log.single {service : Service I σ} (serves : services service) (request : I.Request)
    (state : σ) :
    Log services state [⟨request, (service.reply request state).answer⟩]
      (service.reply request state).state :=
  Log.nothing.ask serves request

/-- Every answer on record was given by some service. -/
theorem Log.answered {state later : σ} {trace : List (Exchange I)}
    (log : Log services state trace later) {exchange : Exchange I} (member : exchange ∈ trace) :
    ∃ service middle, services service ∧
      exchange = ⟨exchange.1, (service.reply exchange.1 middle).answer⟩ := by
  induction log with
  | nothing => cases member
  | @ask _ middle _ service serves request ih =>
    rcases List.mem_append.mp member with before | now
    · exact ih before
    · cases List.mem_singleton.mp now
      exact ⟨service, middle, serves, rfl⟩

theorem Pool.Step.log {pool pool' : Pool I} {world world' : World σ} {trace : List (Exchange I)}
    (step : Pool.Step services pool world trace pool' world') :
    Log services world.state trace world'.state := by
  rcases step.cases with ⟨chunk, rest, _, _, _, _, rfl, rfl, _⟩ |
    ⟨before, chunk, request, next, after, service, serves, _, rfl, rfl, _⟩ |
    ⟨before, chunk, ending, after, _, rfl, concluded⟩
  · exact .nothing
  · exact .single serves request world.state
  · cases concluded
    exact .nothing

/-- **A step of a run** asks one request or leaves the state alone. -/
theorem Flow.Step.log {flow flow' : Flow I α} {world world' : World σ} {trace : List (Exchange I)}
    (step : Flow.Step services flow world trace flow' world') :
    Log services world.state trace world'.state := by
  cases step with
  | ask serves => exact .single serves _ world.state
  | checkpoint => exact .nothing
  | stage moved => exact moved.log
  | settle settled => exact .nothing

/-- The requests along a path that nobody else disturbs account for what has become of the state. -/
theorem Flow.Path.log {setting : Setting I σ} {flow flow' : Flow I α} {world world' : World σ}
    {trace : List (Exchange I)} (path : Path setting Eq flow world trace flow' world') :
    Log setting.services world.state trace world'.state := by
  induction path with
  | start => exact .nothing
  | step _ step ih => exact ih.append step.log
  | disturb _ same _ ih => exact same ▸ ih

/-! ### Requests that can be made at all -/

/-- Every request of the task is allowed, whatever the answers. -/
def Task.Asks (allowed : I.Request → Prop) : Task I α → Prop
  | .done _ => True
  | .ask request next => allowed request ∧ ∀ answer, Asks allowed (next answer)

variable {allowed : I.Request → Prop}

/-- A task followed by another asks what both ask. -/
theorem Task.Asks.bind {task : Task I α} {after : α → Task I β} (asks : task.Asks allowed)
    (rest : ∀ value, (after value).Asks allowed) : (task.bind after).Asks allowed := by
  induction task with
  | done value => exact rest value
  | ask request next ih => exact ⟨asks.1, fun answer => ih answer (asks.2 answer)⟩

/-- Every request of the tasks of a stage is allowed. -/
structure Pool.Asks (allowed : I.Request → Prop) (pool : Pool I) : Prop where
  waiting : ∀ chunk ∈ pool.waiting, (pool.work chunk).Asks allowed
  running : ∀ entry ∈ pool.running, entry.2.Asks allowed

/-- Every request of the run is allowed, whatever the answers. -/
def Flow.Asks (allowed : I.Request → Prop) : Flow I α → Prop
  | .done _ => True
  | .ask request next => allowed request ∧ ∀ answer, Asks allowed (next answer)
  | .checkpoint next => ∀ cancelled, Asks allowed (next cancelled)
  | .stage pool next => pool.Asks allowed ∧ ∀ result, Asks allowed (next result)

namespace Flow

theorem Asks.bind {flow : Flow I α} {after : α → Flow I β} (asks : flow.Asks allowed)
    (rest : ∀ value, (after value).Asks allowed) : (flow.bind after).Asks allowed := by
  induction flow with
  | done value => exact rest value
  | ask request next ih => exact ⟨asks.1, fun answer => ih answer (asks.2 answer)⟩
  | checkpoint next ih => exact fun cancelled => ih cancelled (asks cancelled)
  | stage pool next ih => exact ⟨asks.1, fun result => ih result (asks.2 result)⟩

theorem asks_ofTask {task : Task I α} (asks : task.Asks allowed) :
    (Flow.ofTask task).Asks allowed := by
  induction task with
  | done value => trivial
  | ask request next ih => exact ⟨asks.1, fun answer => ih answer (asks.2 answer)⟩

end Flow

/-- A step of a stage asks what is allowed. -/
theorem Pool.Step.asks {pool pool' : Pool I} {world world' : World σ} {trace : List (Exchange I)}
    (step : Pool.Step services pool world trace pool' world') (asks : pool.Asks allowed) :
    (∀ exchange ∈ trace, allowed exchange.1) ∧ pool'.Asks allowed := by
  rcases step.cases with ⟨chunk, rest, shape, _, _, _, rfl, _, rfl⟩ |
    ⟨before, chunk, request, next, after, service, _, shape, rfl, _, rfl⟩ |
    ⟨before, chunk, ending, after, shape, rfl, concluded⟩
  · refine ⟨by simp, ?_, ?_⟩
    · exact fun other member => asks.waiting other (shape ▸ List.mem_cons_of_mem _ member)
    · intro entry member
      rcases List.mem_append.mp member with old | new
      · exact asks.running entry old
      · rw [List.mem_singleton.mp new]
        exact asks.waiting chunk (shape ▸ List.mem_cons_self)
  · have own : Task.Asks allowed (.ask request next) :=
      asks.running (chunk, .ask request next) (by simp [shape])
    refine ⟨fun exchange member => ?_, asks.waiting, fun entry member => ?_⟩
    · rw [List.mem_singleton.mp member]
      exact own.1
    · rcases List.mem_append.mp member with left | right
      · exact asks.running entry (by simp [shape, left])
      · rcases List.mem_cons.mp right with rfl | right
        · exact own.2 _
        · exact asks.running entry (by simp [shape, right])
  · cases concluded
    refine ⟨by simp, asks.waiting, fun entry member => ?_⟩
    rcases List.mem_append.mp member with left | right
    · exact asks.running entry (by simp [shape, left])
    · exact asks.running entry (by simp [shape, right])

/-- **A step of a run asks what is allowed**, and so does what is left of it. -/
theorem Flow.Step.asks {flow flow' : Flow I α} {world world' : World σ}
    {trace : List (Exchange I)} (step : Flow.Step services flow world trace flow' world')
    (asks : flow.Asks allowed) :
    (∀ exchange ∈ trace, allowed exchange.1) ∧ flow'.Asks allowed := by
  cases step with
  | ask serves =>
    refine ⟨fun exchange member => ?_, asks.2 _⟩
    rw [List.mem_singleton.mp member]
    exact asks.1
  | checkpoint => exact ⟨by simp, asks _⟩
  | stage moved => exact (moved.asks asks.1).imp_right fun kept => ⟨kept, asks.2⟩
  | settle settled => exact ⟨by simp, asks.2 _⟩

end Transcode
