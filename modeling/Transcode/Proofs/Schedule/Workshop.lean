/-
**Stages that share their workers.** The clones of one executor draw on one pool of permits, while
each of them runs its stages under a token of its own.

* `Workshop` is the pool of permits with all stages under way, each at some place of its loop;
  `Workshop.Step` is one step of any of them, the begin or the end of a stage, or what happens
  around them.
* `Dispatcher.Step.permits` — a step of a stage neither makes nor loses a permit: what its tasks
  and its loop hold and what is free stay the same taken together.
* `Workshop.budget_is_kept` — so the workers of all stages together stay within the budget, and none
  is ever lost.
-/
import Mathlib.Logic.Relation
import Transcode.Proofs.Schedule.Dispatcher

namespace Transcode

variable {I : Interface} {σ : Type}

/-! ### The permits of one stage -/

namespace Dispatcher

variable {services : Service I σ → Prop} {loop loop' : Dispatcher I} {world world' : World σ}

/-- The number of tasks under way. -/
def inFlight (loop : Dispatcher I) : Nat :=
  loop.pool.running.length

/-- The number of permits that the loop has in hand. -/
def inHand (loop : Dispatcher I) : Nat :=
  if loop.phase = .holding then 1 else 0

theorem inHand_of_ne (empty : loop.phase ≠ .holding) : loop.inHand = 0 :=
  if_neg empty

/-- What a task does in between starts none. -/
theorem permits_of_does {pool pool' : Pool I} {chunk : ChunkIndex} {deed : Deed I}
    (started : deed ≠ .start)
    (does : pool.Does services world (.task pool.stage chunk deed) pool' world') :
    pool'.running.length + world'.free = pool.running.length + world.free := by
  rcases does.cases with ⟨_, _, _, same, _⟩ |
    ⟨before, chunk, request, next, after, service, _, shape, _, rfl, rfl⟩ |
    ⟨before, chunk, ending, after, shape, _, concluded⟩
  · cases same
    exact absurd rfl started
  · simp [shape, World.serve]
  · cases concluded
    simp only [World.release, shape, List.length_append, List.length_cons]
    omega

/-- A permit that was given back goes to the next task. -/
theorem permits_of_start {pool pool' : Pool I} {chunk : ChunkIndex}
    (does : pool.Does services world.release (.task pool.stage chunk .start) pool' world') :
    pool'.running.length + world'.free = pool.running.length + 1 + world.free := by
  rcases does.cases with ⟨chunk, rest, _, _, rfl, rfl⟩ | ⟨_, _, _, _, _, _, _, _, same, _⟩ |
    ⟨_, _, _, _, _, same, _⟩
  · simp [World.acquire, World.release]
  · cases same
  · cases same

/-- **A step of a stage neither makes nor loses a permit.** -/
theorem Step.permits {now : List (Notice I)} (step : Step services loop world now loop' world') :
    loop'.inFlight + loop'.inHand + world'.free = loop.inFlight + loop.inHand + world.free := by
  cases step with
  | acquire waits _ free =>
    simp only [inFlight, inHand, pool, waits, World.acquire, reduceCtorEq, if_true, if_false]
    omega
  | spawn holds _ does =>
    have moved := permits_of_start does
    simp only [inFlight, inHand, pool, holds, reduceCtorEq, if_true, if_false] at moved ⊢
    omega
  | giveBack holds _ =>
    simp only [inFlight, inHand, pool, holds, World.release, reduceCtorEq, if_true, if_false]
    omega
  | stop waits _ => simp only [inFlight, inHand, pool, waits, reduceCtorEq, if_false]
  | work started does =>
    have moved := permits_of_does started does
    simp only [inFlight, inHand, pool] at moved ⊢
    omega
  | join joins _ => simp only [inFlight, inHand, pool, joins, reduceCtorEq, if_false]

/-- A stage that returns holds no permit. -/
theorem permits_of_returns {result : Except RunError StageSummary}
    (joins : loop.phase = .joining) (returns : loop.gathering.Returns world result) :
    loop.inFlight = 0 ∧ loop.inHand = 0 := by
  refine ⟨?_, inHand_of_ne (by simp [joins])⟩
  have idle := (Bool.and_eq_true_iff.mp returns.settled).2
  exact List.length_eq_zero_iff.mpr (List.isEmpty_iff.mp idle)

end Dispatcher

/-! ### Stages side by side -/

/-- A stage under way, with the token of its run. -/
structure StageCall (I : Interface) where
  loop : Dispatcher I
  /-- Whether the token has fired. -/
  fired : Bool

/-- The clones of one executor with their stages. -/
structure Workshop (I : Interface) (σ : Type) where
  calls : List (StageCall I)
  /-- The permits that nobody holds. -/
  free : Nat
  /-- The state behind the services. -/
  state : σ

namespace Workshop

/-- An executor that has not run any stage. -/
def opening (concurrency : Nat) (state : σ) : Workshop I σ :=
  ⟨[], (World.fresh concurrency state).free, state⟩

/-- The workshop as it looks to a stage with the given token. -/
def world (shop : Workshop I σ) (fired : Bool) : World σ :=
  ⟨shop.free, fired, shop.state⟩

/-- The number of tasks under way in all stages. -/
def inFlight (shop : Workshop I σ) : Nat :=
  (shop.calls.map fun call => call.loop.inFlight).sum

/-- The number of permits that loops have in hand, for no task as yet. -/
def inHand (shop : Workshop I σ) : Nat :=
  (shop.calls.map fun call => call.loop.inHand).sum

/-- **One step in a workshop.** -/
inductive Step (services : Service I σ → Prop) (shop : Workshop I σ) : Workshop I σ → Prop
  /-- A clone begins with a stage. -/
  | call (stage : Stage) (chunks : List ChunkIndex) (work : ChunkIndex → Task I Ending)
      (fired : Bool) :
      Step services shop { shop with calls := shop.calls ++ [⟨.start stage chunks work, fired⟩] }
  /-- A stage takes a step. -/
  | move (before after : List (StageCall I)) {loop loop' : Dispatcher I} {fired : Bool}
      {now : List (Notice I)} {world' : World σ}
      (here : shop.calls = before ++ ⟨loop, fired⟩ :: after)
      (step : loop.Step services (shop.world fired) now loop' world') :
      Step services shop
        ⟨before ++ ⟨loop', world'.cancelled⟩ :: after, world'.free, world'.state⟩
  /-- The token of a stage fires. -/
  | fire (before after : List (StageCall I)) {loop : Dispatcher I} {fired : Bool}
      (here : shop.calls = before ++ ⟨loop, fired⟩ :: after) :
      Step services shop { shop with calls := before ++ ⟨loop, true⟩ :: after }
  /-- A stage returns. -/
  | leave (before after : List (StageCall I)) {loop : Dispatcher I} {fired : Bool}
      {result : Except RunError StageSummary}
      (here : shop.calls = before ++ ⟨loop, fired⟩ :: after) (joins : loop.phase = .joining)
      (returns : loop.gathering.Returns (shop.world fired) result) :
      Step services shop { shop with calls := before ++ after }
  /-- Others change the state. -/
  | change (state : σ) : Step services shop { shop with state := state }

/-- Any sequence of steps in a workshop. -/
def Reaches (services : Service I σ → Prop) : Workshop I σ → Workshop I σ → Prop :=
  Relation.ReflTransGen (Step services)

variable {services : Service I σ → Prop} {shop later : Workshop I σ}

/-- **Every step in a workshop keeps the permits together.** -/
theorem Step.permits (step : Step services shop later) :
    later.inFlight + (later.inHand + later.free) = shop.inFlight + (shop.inHand + shop.free) := by
  cases step with
  | call stage chunks work fired =>
    simp [inFlight, inHand, Dispatcher.inFlight, Dispatcher.inHand, Dispatcher.start,
      Dispatcher.pool, Gathering.start, Pool.start]
  | move before after here step =>
    have moved := step.permits
    simp only [inFlight, inHand, here, List.map_append, List.map_cons, List.sum_append,
      List.sum_cons, world] at moved ⊢
    omega
  | fire before after here => simp [inFlight, inHand, here]
  | leave before after here joins returns =>
    obtain ⟨idle, empty⟩ := Dispatcher.permits_of_returns joins returns
    simp [inFlight, inHand, here, idle, empty]
  | change => rfl

/-- **No permit is made or lost** while stages come and go. -/
theorem Reaches.permits (reached : Reaches services shop later) :
    later.inFlight + (later.inHand + later.free) = shop.inFlight + (shop.inHand + shop.free) := by
  induction reached with
  | refl => rfl
  | tail _ step ih => exact step.permits.trans ih

/-- **The budget of workers is kept**, whatever stages run side by side, however their steps
interleave, however their tasks end and whenever tokens fire. At every moment the tasks under way in
all stages and the permits that no task holds make up the budget, so there are never more tasks than
that. Between dispatches, where no loop has a permit in hand, all of those permits are free; and
where no task is left besides, the whole budget is. -/
theorem budget_is_kept (concurrency : Nat) (state : σ)
    (reached : Reaches services (opening concurrency state) shop) :
    shop.inFlight + (shop.inHand + shop.free) = max concurrency 1 ∧
    shop.inFlight ≤ max concurrency 1 ∧
    ((∀ call ∈ shop.calls, call.loop.phase ≠ .holding) →
      shop.inFlight + shop.free = max concurrency 1 ∧
      ((∀ call ∈ shop.calls, call.loop.pool.running = []) → shop.free = max concurrency 1)) := by
  have kept : shop.inFlight + (shop.inHand + shop.free) = max concurrency 1 := by
    rw [reached.permits]
    simp [opening, inFlight, inHand, World.fresh]
  refine ⟨kept, by omega, fun unheld => ?_⟩
  have none : shop.inHand = 0 := by
    rw [inHand, List.sum_eq_zero_iff, List.forall_mem_map]
    exact fun call member => Dispatcher.inHand_of_ne (unheld call member)
  refine ⟨by omega, fun idle => ?_⟩
  have none : shop.inFlight = 0 := by
    rw [inFlight, List.sum_eq_zero_iff, List.forall_mem_map]
    exact fun call member => List.length_eq_zero_iff.mpr (idle call member)
  omega

/-- Two stages with one worker: the task of the first panics, and the second gets its permit, which
it gives back because its token has fired in the meantime. -/
theorem budget_is_kept_drill :
    let first : Dispatcher Drill.interface :=
      ⟨⟨⟨.baselineEncode, fun chunk => Drill.task chunk .panic, [], [], [(0, .panicked)], false⟩,
        []⟩, .dispatching⟩
    let second (phase : Phase) : Dispatcher Drill.interface :=
      ⟨.start .stateExtraction [0, 1] fun chunk => Drill.task chunk (.finish .completed), phase⟩
    let held : Workshop Drill.interface (List ChunkIndex) :=
      ⟨[⟨first, false⟩, ⟨second .holding, true⟩], 0, [0]⟩
    let back : Workshop Drill.interface (List ChunkIndex) :=
      ⟨[⟨first, false⟩, ⟨second .joining, true⟩], 1, [0]⟩
    Reaches (· = Drill.service) (opening 1 []) held ∧ held.inFlight + (held.inHand + 0) = 1 ∧
    Reaches (· = Drill.service) (opening 1 []) back ∧ back.free = 1 := by
  intro first second held back
  have called : Reaches (· = Drill.service) (opening 1 [])
      ⟨[⟨.start .baselineEncode [0] fun chunk => Drill.task chunk .panic, false⟩,
        ⟨second .dispatching, false⟩], 1, []⟩ :=
    (Relation.ReflTransGen.refl.tail (.call _ _ _ _)).tail (.call _ _ _ _)
  have started := (called.tail
    (.move [] _ rfl (.acquire rfl (List.cons_ne_nil _ _) Nat.one_pos))).tail
    (.move [] _ rfl (.spawn rfl rfl (.start rfl rfl)))
  have panicked := (started.tail (.move [] _ rfl
      (.work (by nofun) (.ask rfl (show _[0]? = some _ from rfl) rfl)))).tail
    (.move [] _ rfl (.work (by nofun) (.finish rfl (show _[0]? = some _ from rfl) rfl)))
  have acquired : Reaches (· = Drill.service) (opening 1 []) held :=
    (panicked.tail (.move [⟨first, false⟩] _ rfl
      (.acquire rfl (List.cons_ne_nil _ _) Nat.one_pos))).tail
    (.fire [⟨first, false⟩] _ rfl)
  have given : Reaches (· = Drill.service) (opening 1 []) back :=
    acquired.tail (.move [⟨first, false⟩] []
      (rfl : held.calls = [⟨first, false⟩] ++ [⟨second .holding, true⟩]) (.giveBack rfl rfl))
  refine ⟨acquired, (budget_is_kept 1 [] acquired).1, given, ?_⟩
  refine ((budget_is_kept 1 [] given).2.2 ?_).2 ?_
  · simp [back, first, second]
  · simp [back, first, second, Dispatcher.pool, Gathering.start, Pool.start]

end Workshop

end Transcode
