/-
**Who does what in a run.** A path records what was asked, but not by which task. A `Course` is a
path in which every step of a stage is put down to the chunk whose task took it.

* `Event` is a question of the run itself, or a `Deed` of a task: its start, a question, or its end.
  `deeds` are those of one task.
* `Flow.Path.course` — every path is the path of a course, and every course has its path
  (`Flow.Course.path`).
* `Flow.Course.of_bind` takes the course of two runs in a row apart; in a run without stages every
  question is the run's own (`Flow.Course.of_task`).
-/
import Transcode.Proofs.Schedule.Ensures

namespace Transcode

variable {I : Interface} {σ α β : Type}

/-! ### Events -/

/-- What a task does in one step of its stage. -/
inductive Deed (I : Interface) where
  | start
  | ask (exchange : Exchange I)
  | finish (ending : Ending)

/-- What happens in one step of a run. -/
inductive Event (I : Interface) where
  /-- The run asks a question of its own. -/
  | own (exchange : Exchange I)
  /-- The task of a chunk does something in a stage. -/
  | task (stage : Stage) (chunk : ChunkIndex) (deed : Deed I)

/-- The question of a deed, with its answer. -/
def Deed.exchanges : Deed I → List (Exchange I)
  | ask exchange => [exchange]
  | _ => []

/-- The question that was asked, with its answer. -/
def Event.exchanges : Event I → List (Exchange I)
  | own exchange => [exchange]
  | task _ _ deed => deed.exchanges

/-- What the task of a chunk has done in a stage. -/
def deeds (stage : Stage) (chunk : ChunkIndex) (events : List (Event I)) : List (Deed I) :=
  events.filterMap fun
    | .own _ => none
    | .task place part deed => if place = stage ∧ part = chunk then some deed else none

theorem deeds_append (stage : Stage) (chunk : ChunkIndex) (events more : List (Event I)) :
    deeds stage chunk (events ++ more) = deeds stage chunk events ++ deeds stage chunk more :=
  List.filterMap_append ..

theorem mem_deeds {stage : Stage} {chunk : ChunkIndex} {deed : Deed I} {events : List (Event I)} :
    deed ∈ deeds stage chunk events ↔ .task stage chunk deed ∈ events := by
  rw [deeds, List.mem_filterMap]
  constructor
  · rintro ⟨event, member, same⟩
    cases event with
    | own exchange => cases same
    | task place part own =>
      dsimp only at same
      split at same
      · next here =>
        cases same
        obtain ⟨rfl, rfl⟩ := here
        exact member
      · cases same
  · exact fun member => ⟨_, member, if_pos ⟨rfl, rfl⟩⟩

/-- A task that nothing is on record of has done nothing. -/
theorem deeds_eq_nil {stage : Stage} {chunk : ChunkIndex} {events : List (Event I)}
    (none : ∀ deed, .task stage chunk deed ∉ events) : deeds stage chunk events = [] :=
  List.eq_nil_iff_forall_not_mem.mpr fun deed member => none deed (mem_deeds.mp member)

theorem deeds_self (stage : Stage) (chunk : ChunkIndex) (deed : Deed I) :
    deeds stage chunk [.task stage chunk deed] = [deed] := by
  simp [deeds]

theorem deeds_of_ne {stage place : Stage} {chunk part : ChunkIndex}
    (differs : ¬ (place = stage ∧ part = chunk)) (deed : Deed I) :
    deeds stage chunk [.task place part deed] = [] := by
  simp [deeds, differs]

/-! ### Steps with their events -/

/-- One step of a stage, with what it is for the task that takes it. -/
inductive Pool.Does (services : Service I σ → Prop) (pool : Pool I) (world : World σ) :
    Event I → Pool I → World σ → Prop
  | start {chunk : ChunkIndex} {rest : List ChunkIndex} {pool' : Pool I} {world' : World σ}
      (first : pool.waiting = chunk :: rest)
      (started : pool.dispatch world = some (pool', world')) :
      Does services pool world (.task pool.stage chunk .start) pool' world'
  | ask {service : Service I σ} {place : Nat} {chunk : ChunkIndex} {request : I.Request}
      {next : I.Answer request → Task I Ending} {pool' : Pool I} {world' : World σ}
      (serves : services service) (here : pool.running[place]? = some (chunk, .ask request next))
      (moved : pool.advance service place world = some (pool', world')) :
      Does services pool world
        (.task pool.stage chunk (.ask ⟨request, (world.serve service request).1⟩)) pool' world'
  | finish {service : Service I σ} {place : Nat} {chunk : ChunkIndex} {ending : Ending}
      {pool' : Pool I} {world' : World σ}
      (serves : services service) (here : pool.running[place]? = some (chunk, .done ending))
      (moved : pool.advance service place world = some (pool', world')) :
      Does services pool world (.task pool.stage chunk (.finish ending)) pool' world'

/-- One step of a run, with its events. -/
inductive Flow.Does (services : Service I σ → Prop) :
    Flow I α → World σ → List (Event I) → Flow I α → World σ → Prop
  | ask {request : I.Request} {next : I.Answer request → Flow I α} {world : World σ}
      {service : Service I σ} (serves : services service) :
      Does services (.ask request next) world [.own ⟨request, (world.serve service request).1⟩]
        (next (world.serve service request).1) (world.serve service request).2
  | checkpoint {next : Bool → Flow I α} {world : World σ} :
      Does services (.checkpoint next) world [] (next world.cancelled) world
  | stage {pool pool' : Pool I} {next : Except RunError StageSummary → Flow I α}
      {world world' : World σ} {event : Event I}
      (moved : pool.Does services world event pool' world') :
      Does services (.stage pool next) world [event] (.stage pool' next) world'
  | settle {pool : Pool I} {next : Except RunError StageSummary → Flow I α} {world : World σ}
      (settled : pool.isSettled world = true) :
      Does services (.stage pool next) world [] (next pool.result) world

variable {services : Service I σ → Prop}

theorem Pool.Does.step {pool pool' : Pool I} {world world' : World σ} {event : Event I}
    (does : pool.Does services world event pool' world') :
    pool.Step services world event.exchanges pool' world' := by
  cases does with
  | start first started => exact .dispatch started
  | ask serves here moved =>
    have step := Step.advance serves moved
    rwa [Pool.exchanges, here] at step
  | finish serves here moved =>
    have step := Step.advance serves moved
    rwa [Pool.exchanges, here] at step

theorem Pool.Step.does {pool pool' : Pool I} {world world' : World σ} {trace : List (Exchange I)}
    (step : pool.Step services world trace pool' world') :
    ∃ event, pool.Does services world event pool' world' ∧ trace = event.exchanges := by
  cases step with
  | dispatch started =>
    cases first : pool.waiting with
    | nil => simp [Pool.dispatch, first] at started
    | cons chunk rest => exact ⟨_, .start first started, rfl⟩
  | @advance service place _ _ serves moved =>
    rcases here : pool.running[place]? with _ | ⟨chunk, ending | ⟨request, next⟩⟩
    · simp [Pool.advance, here] at moved
    · exact ⟨_, .finish serves here moved, by rw [Pool.exchanges, here]; rfl⟩
    · exact ⟨_, .ask serves here moved, by rw [Pool.exchanges, here]; rfl⟩

theorem Flow.Does.step {flow flow' : Flow I α} {world world' : World σ} {events : List (Event I)}
    (does : Does services flow world events flow' world') :
    Step services flow world (events.flatMap Event.exchanges) flow' world' := by
  cases does with
  | ask serves => exact .ask serves
  | checkpoint => exact .checkpoint
  | stage moved =>
    rw [List.flatMap_singleton]
    exact .stage moved.step
  | settle settled => exact .settle settled

theorem Flow.Step.does {flow flow' : Flow I α} {world world' : World σ}
    {trace : List (Exchange I)} (step : Step services flow world trace flow' world') :
    ∃ events, Does services flow world events flow' world' ∧
      trace = events.flatMap Event.exchanges := by
  cases step with
  | ask serves => exact ⟨_, .ask serves, rfl⟩
  | checkpoint => exact ⟨_, .checkpoint, rfl⟩
  | stage moved =>
    obtain ⟨event, does, rfl⟩ := moved.does
    exact ⟨_, .stage does, (List.flatMap_singleton ..).symm⟩
  | settle settled => exact ⟨_, .settle settled, rfl⟩

/-- **What a step of a stage can do**, with its event. -/
theorem Pool.Does.cases {pool pool' : Pool I} {world world' : World σ} {event : Event I}
    (does : pool.Does services world event pool' world') :
    (∃ chunk rest, pool.waiting = chunk :: rest ∧ event = .task pool.stage chunk .start ∧
        world' = world.acquire ∧
        pool' = { pool with
          waiting := rest, running := pool.running ++ [(chunk, pool.work chunk)] }) ∨
      (∃ before chunk request next after service, services service ∧
        pool.running = before ++ (chunk, .ask request next) :: after ∧
        event = .task pool.stage chunk (.ask ⟨request, (world.serve service request).1⟩) ∧
        world' = (world.serve service request).2 ∧
        pool' = { pool with
          running := before ++ (chunk, next (world.serve service request).1) :: after }) ∨
      (∃ before chunk ending after,
        pool.running = before ++ (chunk, .done ending) :: after ∧
        event = .task pool.stage chunk (.finish ending) ∧
        (pool', world') =
          { pool with running := before ++ after }.conclude chunk ending world) := by
  have split {place : Nat} {entry : ChunkIndex × Task I Ending}
      (here : pool.running[place]? = some entry) :
      pool.running = pool.running.take place ++ entry :: pool.running.drop (place + 1) := by
    obtain ⟨inside, value⟩ := List.getElem?_eq_some_iff.mp here
    rw [← value, ← List.drop_eq_getElem_cons inside, List.take_append_drop]
  cases does with
  | @start chunk rest _ _ first started =>
    refine .inl ⟨chunk, rest, first, rfl, ?_⟩
    rw [Pool.dispatch, first] at started
    dsimp only at started
    split at started
    · cases started
    · cases started
      exact ⟨rfl, rfl⟩
  | ask serves here moved =>
    refine .inr (.inl ⟨_, _, _, _, _, _, serves, split here, rfl, ?_⟩)
    simp only [Pool.advance, here] at moved
    cases moved
    refine ⟨rfl, ?_⟩
    rw [List.set_eq_take_append_cons_drop, if_pos (List.getElem?_eq_some_iff.mp here).1]
  | finish serves here moved =>
    refine .inr (.inr ⟨_, _, _, _, split here, rfl, ?_⟩)
    simp only [Pool.advance, here] at moved
    rw [← Option.some.inj moved, List.eraseIdx_eq_take_drop_succ]

/-! ### Courses -/

namespace Flow

/-- **Any sequence of steps of a run**, with its events, and with what others do in between. -/
inductive Course (setting : Setting I σ) (rely : σ → σ → Prop) (flow : Flow I α)
    (world : World σ) : List (Event I) → Flow I α → World σ → Prop
  | start : Course setting rely flow world [] flow world
  | step {events now : List (Event I)} {flow' flow'' : Flow I α} {world' world'' : World σ}
      (course : Course setting rely flow world events flow' world')
      (does : Does setting.services flow' world' now flow'' world'') :
      Course setting rely flow world (events ++ now) flow'' world''
  | disturb {events : List (Event I)} {flow' : Flow I α} {world' world'' : World σ}
      (course : Course setting rely flow world events flow' world')
      (allowed : rely world'.state world''.state)
      (fires : world''.cancelled = true → world'.cancelled = true ∨ setting.interruptible) :
      Course setting rely flow world events flow' world''

variable {setting : Setting I σ} {rely : σ → σ → Prop} {flow flow' : Flow I α}
  {world world' : World σ} {events : List (Event I)}

/-- Every course is a path. -/
theorem Course.path (course : Course setting rely flow world events flow' world') :
    Path setting rely flow world (events.flatMap Event.exchanges) flow' world' := by
  induction course with
  | start => exact .start
  | step _ does ih =>
    rw [List.flatMap_append]
    exact ih.step does.step
  | disturb _ allowed fires ih => exact ih.disturb allowed fires

/-- **Every path has its course.** -/
theorem Path.course {trace : List (Exchange I)}
    (path : Path setting rely flow world trace flow' world') :
    ∃ events, Course setting rely flow world events flow' world' ∧
      trace = events.flatMap Event.exchanges := by
  induction path with
  | start => exact ⟨[], .start, rfl⟩
  | step _ step ih =>
    obtain ⟨events, course, rfl⟩ := ih
    obtain ⟨now, does, rfl⟩ := step.does
    exact ⟨_, course.step does, List.flatMap_append.symm⟩
  | disturb _ allowed fires ih =>
    obtain ⟨events, course, same⟩ := ih
    exact ⟨events, course.disturb allowed fires, same⟩

/-- A finished run does nothing more. -/
theorem Course.of_done {value : α}
    (course : Course setting rely (.done value) world events flow' world') :
    events = [] ∧ flow' = .done value := by
  induction course with
  | start => exact ⟨rfl, rfl⟩
  | step _ does ih =>
    obtain ⟨rfl, rfl⟩ := ih
    cases does
  | disturb _ _ _ ih => exact ih

/-- A step of a run that is followed by another is a step of the first, unless that is done. -/
theorem does_bind {flow : Flow I α} {after : α → Flow I β} {flow' : Flow I β}
    {world world' : World σ} {events : List (Event I)}
    (does : Does services (flow.bind after) world events flow' world') :
    (∃ value, flow = .done value) ∨
      ∃ first, flow' = Flow.bind first after ∧ Does services flow world events first world' := by
  cases flow with
  | done value => exact .inl ⟨value, rfl⟩
  | ask request next =>
    cases does with
    | ask serves => exact .inr ⟨_, rfl, .ask serves⟩
  | checkpoint next =>
    cases does with
    | checkpoint => exact .inr ⟨_, rfl, .checkpoint⟩
  | stage pool next =>
    cases does with
    | stage moved => exact .inr ⟨_, rfl, .stage moved⟩
    | settle settled => exact .inr ⟨_, rfl, .settle settled⟩

/-- **The course of two runs in a row**: of the first alone, or of the first to its end and then of
the second. -/
theorem Course.of_bind {after : α → Flow I β} {final : Flow I β}
    (course : Course setting rely (flow.bind after) world events final world') :
    (∃ first, final = first.bind after ∧ Course setting rely flow world events first world') ∨
      ∃ value middle early late, events = early ++ late ∧
        Course setting rely flow world early (.done value) middle ∧
        Course setting rely (after value) middle late final world' := by
  induction course with
  | start => exact .inl ⟨flow, rfl, .start⟩
  | step _ does ih =>
    rcases ih with ⟨first, rfl, course⟩ | ⟨value, middle, early, late, rfl, course, rest⟩
    · rcases does_bind does with ⟨value, rfl⟩ | ⟨next, rfl, inner⟩
      · exact .inr ⟨value, _, _, _, rfl, course, .step .start does⟩
      · exact .inl ⟨next, rfl, course.step inner⟩
    · exact .inr ⟨value, middle, early, _, List.append_assoc .., course, rest.step does⟩
  | disturb _ allowed fires ih =>
    rcases ih with ⟨first, rfl, course⟩ | ⟨value, middle, early, late, rfl, course, rest⟩
    · exact .inl ⟨first, rfl, course.disturb allowed fires⟩
    · exact .inr ⟨value, middle, early, late, rfl, course, rest.disturb allowed fires⟩

/-- Two runs in a row that have come to their end, taken apart. -/
theorem Course.done_bind {after : α → Flow I β} {result : β}
    (course : Course setting rely (flow.bind after) world events (.done result) world') :
    ∃ value middle early late, events = early ++ late ∧
      Course setting rely flow world early (.done value) middle ∧
      Course setting rely (after value) middle late (.done result) world' := by
  rcases course.of_bind with ⟨first, shape, course⟩ | split
  · cases first with
    | done value =>
      refine ⟨value, world', events, [], (List.append_nil _).symm, course, ?_⟩
      exact (show Flow.done result = after value from shape) ▸ .start
    | ask request next => cases shape
    | checkpoint next => cases shape
    | stage pool next => cases shape
  · exact split

/-- What is left of a run without stages leads to the same values, after the same questions. -/
theorem Course.rest_of_task {task : Task I α}
    (course : Course setting rely (Flow.ofTask task) world events flow' world') :
    ∃ trace current, flow' = Flow.ofTask current ∧ events = trace.map Event.own ∧
      ∀ more value, current.Yields more value → task.Yields (trace ++ more) value := by
  induction course with
  | start => exact ⟨[], task, rfl, rfl, fun _ _ yields => yields⟩
  | disturb _ _ _ ih => exact ih
  | step _ does ih =>
    obtain ⟨trace, current, rfl, rfl, way⟩ := ih
    cases current with
    | done value => cases does
    | ask request next =>
      cases does with
      | ask serves =>
        refine ⟨trace ++ [⟨request, _⟩], _, rfl, by rw [List.map_append]; rfl, ?_⟩
        intro more value yields
        rw [List.append_assoc]
        exact way _ _ (.ask request _ yields)

/-- In a run without stages, every question is the run's own. -/
theorem Course.of_task {task : Task I α} {value : α}
    (course : Course setting rely (Flow.ofTask task) world events (.done value) world') :
    ∃ trace, events = trace.map Event.own ∧ task.Yields trace value := by
  obtain ⟨trace, current, shape, rfl, way⟩ := course.rest_of_task
  cases current with
  | ask request next => cases shape
  | done value =>
    cases shape
    have yields := way [] value (.done value)
    rw [List.append_nil] at yields
    exact ⟨trace, rfl, yields⟩

end Flow

end Transcode
