/-
**Schedules.** A run under way may go on in many ways: each running task may be the next to ask its
question, a chunk may be started as soon as a permit is free, and others may have a hand in the
world in between.

* `Pool.Step` and `Flow.Step` are the single steps of a stage and of a run, in every order in which
  they can happen. The services of which one answers a request are a set, so an answer may be left
  open.
* `Flow.Path` is any sequence of such steps, together with what others do to the world between
  them; it records every request with its answer.
* `Flow.step_bind` takes a step of a run that is followed by another back to the first.
* `Flow.Path.trade` — a path goes the same way with other services that give the same answers.
-/
import Transcode.Schedule.Flow

namespace Transcode

variable {I : Interface} {σ α β : Type}

/-- A request with the answer it got. -/
abbrev Exchange (I : Interface) : Type :=
  (request : I.Request) × I.Answer request

/-! ### Steps of a stage -/

namespace Pool

/-- What the running task at the given place asks in its next step, with the answer. -/
def exchanges (pool : Pool I) (service : Service I σ) (place : Nat) (world : World σ) :
    List (Exchange I) :=
  match pool.running[place]? with
  | some (_, .ask request _) => [⟨request, (world.serve service request).1⟩]
  | _ => []

/-- One step of a stage: a chunk is started, or a running task asks its next question or ends. -/
inductive Step (services : Service I σ → Prop) (pool : Pool I) (world : World σ) :
    List (Exchange I) → Pool I → World σ → Prop
  | dispatch {pool' : Pool I} {world' : World σ}
      (started : pool.dispatch world = some (pool', world')) :
      Step services pool world [] pool' world'
  | advance {service : Service I σ} {place : Nat} {pool' : Pool I} {world' : World σ}
      (serves : services service)
      (moved : pool.advance service place world = some (pool', world')) :
      Step services pool world (pool.exchanges service place world) pool' world'

theorem Step.mono {services wider : Service I σ → Prop}
    (within : ∀ service, services service → wider service) {pool pool' : Pool I}
    {world world' : World σ} {trace : List (Exchange I)}
    (step : Step services pool world trace pool' world') :
    Step wider pool world trace pool' world' := by
  cases step with
  | dispatch started => exact .dispatch started
  | advance serves moved => exact .advance (within _ serves) moved

/-- **What a step of a stage can do**: start the first waiting chunk, let a running task ask, or
let one end. -/
theorem Step.cases {services : Service I σ → Prop} {pool pool' : Pool I}
    {world world' : World σ} {trace : List (Exchange I)}
    (step : Step services pool world trace pool' world') :
    (∃ chunk rest, pool.waiting = chunk :: rest ∧ pool.halted = false ∧
        world.cancelled = false ∧ 0 < world.free ∧ trace = [] ∧ world' = world.acquire ∧
        pool' = { pool with
          waiting := rest, running := pool.running ++ [(chunk, pool.work chunk)] }) ∨
      (∃ before chunk request next after service, services service ∧
        pool.running = before ++ (chunk, .ask request next) :: after ∧
        trace = [⟨request, (world.serve service request).1⟩] ∧
        world' = (world.serve service request).2 ∧
        pool' = { pool with
          running := before ++ (chunk, next (world.serve service request).1) :: after }) ∨
      (∃ before chunk ending after,
        pool.running = before ++ (chunk, .done ending) :: after ∧ trace = [] ∧
        (pool', world') =
          { pool with running := before ++ after }.conclude chunk ending world) := by
  cases step with
  | dispatch started =>
    left
    unfold Pool.dispatch at started
    split at started
    · cases started
    · next chunk rest shape =>
      split at started
      · cases started
      · next open' =>
        cases started
        simp only [Bool.or_eq_true, decide_eq_true_eq, not_or, Bool.not_eq_true] at open'
        exact ⟨chunk, rest, shape, open'.1.1, open'.1.2, Nat.pos_of_ne_zero open'.2, rfl, rfl, rfl⟩
  | @advance service place _ _ serves moved =>
    right
    unfold Pool.exchanges
    unfold Pool.advance at moved
    split at moved
    · cases moved
    · next chunk ending found =>
      obtain ⟨inside, value⟩ := List.getElem?_eq_some_iff.mp found
      right
      refine ⟨pool.running.take place, chunk, ending, pool.running.drop (place + 1), ?_, ?_, ?_⟩
      · rw [← value, ← List.drop_eq_getElem_cons inside, List.take_append_drop]
      · rw [found]
      · rw [← Option.some.inj moved, List.eraseIdx_eq_take_drop_succ]
    · next chunk request next found =>
      obtain ⟨inside, value⟩ := List.getElem?_eq_some_iff.mp found
      cases moved
      left
      refine ⟨pool.running.take place, chunk, request, next, pool.running.drop (place + 1), service,
        serves, ?_, ?_, rfl, ?_⟩
      · rw [← value, ← List.drop_eq_getElem_cons inside, List.take_append_drop]
      · rw [found]
      · rw [List.set_eq_take_append_cons_drop, if_pos inside]
        rfl

/-- What is dispatched is dispatched by an open stage. -/
theorem isClosed_of_dispatch {pool : Pool I} {world : World σ} {moved : Pool I × World σ}
    (started : pool.dispatch world = some moved) : pool.isClosed world = false := by
  unfold dispatch at started
  split at started
  · cases started
  · next chunk rest shape =>
    split at started
    · cases started
    · next unhindered =>
      simp only [Bool.or_eq_true, not_or, Bool.not_eq_true] at unhindered
      simp [isClosed, shape, unhindered.1]

end Pool

/-! ### Steps of a run -/

namespace Flow

/-- One step of a run: it asks a question, looks at the cancellation token, has its stage take a
step, or takes the result of a stage that is over. -/
inductive Step (services : Service I σ → Prop) :
    Flow I α → World σ → List (Exchange I) → Flow I α → World σ → Prop
  | ask {request : I.Request} {next : I.Answer request → Flow I α} {world : World σ}
      {service : Service I σ} (serves : services service) :
      Step services (.ask request next) world [⟨request, (world.serve service request).1⟩]
        (next (world.serve service request).1) (world.serve service request).2
  | checkpoint {next : Bool → Flow I α} {world : World σ} :
      Step services (.checkpoint next) world [] (next world.cancelled) world
  | stage {pool pool' : Pool I} {next : Except RunError StageSummary → Flow I α}
      {world world' : World σ} {trace : List (Exchange I)}
      (moved : pool.Step services world trace pool' world') :
      Step services (.stage pool next) world trace (.stage pool' next) world'
  | settle {pool : Pool I} {next : Except RunError StageSummary → Flow I α} {world : World σ}
      (settled : pool.isSettled world = true) :
      Step services (.stage pool next) world [] (next pool.result) world

/-- More services leave more steps. -/
theorem Step.mono {services wider : Service I σ → Prop}
    (within : ∀ service, services service → wider service) {flow flow' : Flow I α}
    {world world' : World σ} {trace : List (Exchange I)}
    (step : Step services flow world trace flow' world') :
    Step wider flow world trace flow' world' := by
  cases step with
  | ask serves => exact .ask (within _ serves)
  | checkpoint => exact .checkpoint
  | stage moved => exact .stage (moved.mono within)
  | settle settled => exact .settle settled

end Flow

/-- The circumstances under which a run takes its steps. -/
structure Setting (I : Interface) (σ : Type) where
  /-- The services of which one answers each request. -/
  services : Service I σ → Prop
  /-- Whether the cancellation token may fire. -/
  interruptible : Prop
  /-- A service fires the token only where it may fire. -/
  cancels : ∀ {service : Service I σ}, services service → ∀ (request : I.Request) (state : σ),
    (service.reply request state).cancels = true → interruptible

namespace Flow

/-- **Any sequence of steps of a run**, with its requests and answers. Between two steps others may
change the state as far as `rely` allows, take or give back permits, and fire the token where it may
fire. -/
inductive Path (setting : Setting I σ) (rely : σ → σ → Prop) (flow : Flow I α) (world : World σ) :
    List (Exchange I) → Flow I α → World σ → Prop
  | start : Path setting rely flow world [] flow world
  | step {trace now : List (Exchange I)} {flow' flow'' : Flow I α} {world' world'' : World σ}
      (path : Path setting rely flow world trace flow' world')
      (step : Step setting.services flow' world' now flow'' world'') :
      Path setting rely flow world (trace ++ now) flow'' world''
  | disturb {trace : List (Exchange I)} {flow' : Flow I α} {world' world'' : World σ}
      (path : Path setting rely flow world trace flow' world')
      (allowed : rely world'.state world''.state)
      (fires : world''.cancelled = true → world'.cancelled = true ∨ setting.interruptible) :
      Path setting rely flow world trace flow' world''

/-- Less interference leaves fewer paths. -/
theorem Path.mono {setting : Setting I σ} {rely wider : σ → σ → Prop}
    (within : ∀ state later, rely state later → wider state later) {flow flow' : Flow I α}
    {world world' : World σ} {trace : List (Exchange I)}
    (path : Path setting rely flow world trace flow' world') :
    Path setting wider flow world trace flow' world' := by
  induction path with
  | start => exact .start
  | step _ step ih => exact ih.step step
  | disturb _ allowed fires ih => exact ih.disturb (within _ _ allowed) fires

/-! ### Runs that follow one another -/

/-- A step of a run that is followed by another is a step of the first, unless that is done. -/
theorem step_bind {services : Service I σ → Prop} {flow : Flow I α} {after : α → Flow I β}
    {flow' : Flow I β} {world world' : World σ} {trace : List (Exchange I)}
    (step : Step services (flow.bind after) world trace flow' world') :
    (∃ value, flow = .done value) ∨
      ∃ first, flow' = Flow.bind first after ∧ Step services flow world trace first world' := by
  cases flow with
  | done value => exact .inl ⟨value, rfl⟩
  | ask request next =>
    cases step with
    | ask serves => exact .inr ⟨_, rfl, .ask serves⟩
  | checkpoint next =>
    cases step with
    | checkpoint => exact .inr ⟨_, rfl, .checkpoint⟩
  | stage pool next =>
    cases step with
    | stage moved => exact .inr ⟨_, rfl, .stage moved⟩
    | settle settled => exact .inr ⟨_, rfl, .settle settled⟩

end Flow

/-! ### Other services -/

/-- Where the answer of a service is fine, one of the others answers in the same way. -/
def Service.Trades (services others : Service I σ → Prop) (fine : Exchange I → Prop) : Prop :=
  ∀ service, services service → ∀ request state,
    fine ⟨request, (service.reply request state).answer⟩ →
      ∃ twin, others twin ∧ twin.reply request state = service.reply request state

section Trade

variable {services others : Service I σ → Prop} {fine : Exchange I → Prop}

theorem Pool.Step.trade (trades : Service.Trades services others fine)
    (served : ∃ service, others service) {pool pool' : Pool I} {world world' : World σ}
    {trace : List (Exchange I)} (step : Pool.Step services pool world trace pool' world')
    (all : ∀ exchange ∈ trace, fine exchange) : Pool.Step others pool world trace pool' world' := by
  cases step with
  | dispatch started => exact .dispatch started
  | @advance service place _ _ serves moved =>
    suffices ∃ twin, others twin ∧
        pool.advance twin place world = pool.advance service place world ∧
        pool.exchanges twin place world = pool.exchanges service place world by
      obtain ⟨twin, serves, same, asked⟩ := this
      exact asked ▸ .advance serves (same.trans moved)
    unfold Pool.advance Pool.exchanges at *
    split at moved
    · cases moved
    · next found =>
      obtain ⟨twin, serves⟩ := served
      exact ⟨twin, serves, by simp [found]⟩
    · next chunk request next found =>
      rw [found] at all
      obtain ⟨twin, serves, same⟩ := trades service serves request world.state
        (all _ (List.mem_singleton_self _))
      exact ⟨twin, serves, by simp [found, World.serve, same]⟩

theorem Flow.Step.trade (trades : Service.Trades services others fine)
    (served : ∃ service, others service) {flow flow' : Flow I α} {world world' : World σ}
    {trace : List (Exchange I)} (step : Flow.Step services flow world trace flow' world')
    (all : ∀ exchange ∈ trace, fine exchange) :
    Flow.Step others flow world trace flow' world' := by
  cases step with
  | @ask request next _ service serves =>
    obtain ⟨twin, serves, same⟩ := trades service serves request world.state
      (all _ (List.mem_singleton_self _))
    have same : world.serve service request = world.serve twin request := by
      simp [World.serve, same]
    rw [same]
    exact .ask serves
  | checkpoint => exact .checkpoint
  | stage moved => exact .stage (moved.trade trades served all)
  | settle settled => exact .settle settled

/-- **A path on which all answers are fine** is a path with the other services. -/
theorem Flow.Path.trade {setting further : Setting I σ} {rely : σ → σ → Prop}
    (trades : Service.Trades setting.services further.services fine)
    (served : ∃ service, further.services service)
    (fires : setting.interruptible → further.interruptible) {flow flow' : Flow I α}
    {world world' : World σ} {trace : List (Exchange I)}
    (path : Flow.Path setting rely flow world trace flow' world')
    (all : ∀ exchange ∈ trace, fine exchange) :
    Flow.Path further rely flow world trace flow' world' := by
  induction path with
  | start => exact .start
  | step _ step ih =>
    obtain ⟨before, now⟩ := List.forall_mem_append.mp all
    exact (ih before).step (step.trade trades served now)
  | disturb _ allowed more ih =>
    exact (ih all).disturb allowed fun fired => (more fired).imp_right fires

end Trade

end Transcode
