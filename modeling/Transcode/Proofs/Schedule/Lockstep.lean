/-
**Runs in lockstep.** Where a service cannot tell two states apart, neither can a run: from either
state it takes the same steps, comes to the same end, and leaves states behind that cannot be told
apart.

* `Service.Lockstep`: the service answers alike from states that are alike, and leaves them alike.
* `Task.run_lockstep`, `Pool.drive_lockstep`, `Flow.run_lockstep`: so does all that asks it.
-/
import Transcode.Schedule.Flow

namespace Transcode

variable {I : Interface} {σ α : Type} {service : Service I σ} {alike : σ → σ → Prop}
  {first second : World σ}

/-- States that are alike get the same answers, and are alike afterwards. -/
def Service.Lockstep (service : Service I σ) (alike : σ → σ → Prop) : Prop :=
  ∀ request first second, alike first second →
    (service.reply request first).answer = (service.reply request second).answer ∧
      (service.reply request first).cancels = (service.reply request second).cancels ∧
      alike (service.reply request first).state (service.reply request second).state

namespace World

/-- Worlds with the same permits and the same token, and states that are alike. -/
structure Alike (alike : σ → σ → Prop) (first second : World σ) : Prop where
  free : first.free = second.free
  cancelled : first.cancelled = second.cancelled
  state : alike first.state second.state

theorem Alike.serve (lockstep : service.Lockstep alike) (same : Alike alike first second)
    (request : I.Request) :
    (first.serve service request).1 = (second.serve service request).1 ∧
      Alike alike (first.serve service request).2 (second.serve service request).2 := by
  obtain ⟨answer, cancels, state⟩ := lockstep request first.state second.state same.state
  refine ⟨answer, same.free, ?_, state⟩
  show (first.cancelled || _) = (second.cancelled || _)
  rw [same.cancelled, cancels]

theorem Alike.acquire (same : Alike alike first second) :
    Alike alike first.acquire second.acquire :=
  ⟨congrArg (· - 1) same.free, same.cancelled, same.state⟩

theorem Alike.release (same : Alike alike first second) :
    Alike alike first.release second.release :=
  ⟨congrArg (· + 1) same.free, same.cancelled, same.state⟩

end World

theorem Task.run_lockstep (lockstep : service.Lockstep alike) (task : Task I α)
    (same : World.Alike alike first second) :
    (task.run service first).1 = (task.run service second).1 ∧
      World.Alike alike (task.run service first).2 (task.run service second).2 := by
  induction task generalizing first second with
  | done value => exact ⟨rfl, same⟩
  | ask request next ih =>
    obtain ⟨answer, after⟩ := same.serve lockstep request
    have step (world : World σ) : (Task.ask request next).run service world =
        (next (world.serve service request).1).run service (world.serve service request).2 := rfl
    rw [step, step, answer]
    exact ih _ after

namespace Pool

/-- Whether a chunk is started depends on the permits and the token alone. -/
theorem dispatch_lockstep (pool : Pool I) (same : World.Alike alike first second) :
    (pool.dispatch first = none ∧ pool.dispatch second = none) ∨
      ∃ later, pool.dispatch first = some (later, first.acquire) ∧
        pool.dispatch second = some (later, second.acquire) := by
  unfold dispatch
  rw [same.free, same.cancelled]
  cases pool.waiting with
  | nil => exact .inl ⟨rfl, rfl⟩
  | cons chunk rest =>
    simp only
    by_cases stopped : (pool.halted || second.cancelled || second.free = 0) = true
    · rw [if_pos stopped, if_pos stopped]
      exact .inl ⟨rfl, rfl⟩
    · rw [if_neg stopped, if_neg stopped]
      exact .inr ⟨_, rfl, rfl⟩

theorem dispatchAll_of_none {pool : Pool I} {world : World σ}
    (stuck : pool.dispatch world = none) : pool.dispatchAll world = (pool, world) := by
  rw [dispatchAll]
  split
  · rfl
  · next started =>
    rw [stuck] at started
    cases started

theorem dispatchAll_of_some {pool pool' : Pool I} {world world' : World σ}
    (started : pool.dispatch world = some (pool', world')) :
    pool.dispatchAll world = pool'.dispatchAll world' := by
  rw [dispatchAll]
  split
  · next stuck =>
    rw [started] at stuck
    cases stuck
  · next again =>
    obtain ⟨rfl, rfl⟩ := Prod.mk.inj (Option.some.inj (started.symm.trans again))
    rfl

theorem dispatchAll_lockstep (pool : Pool I) (same : World.Alike alike first second) :
    (pool.dispatchAll first).1 = (pool.dispatchAll second).1 ∧
      World.Alike alike (pool.dispatchAll first).2 (pool.dispatchAll second).2 := by
  fun_induction dispatchAll pool first generalizing second with
  | case1 pool first stuck =>
    have idle : pool.dispatch second = none := by
      rcases pool.dispatch_lockstep same with ⟨-, idle⟩ | ⟨later, moved, -⟩
      · exact idle
      · rw [stuck] at moved
        cases moved
    rw [dispatchAll_of_none idle]
    exact ⟨rfl, same⟩
  | case2 pool first later moved started ih =>
    rcases pool.dispatch_lockstep same with ⟨stuck, -⟩ | ⟨other, going, also⟩
    · rw [started] at stuck
      cases stuck
    · obtain ⟨rfl, rfl⟩ := Prod.mk.inj (Option.some.inj (started.symm.trans going))
      rw [dispatchAll_of_some also]
      exact ih same.acquire

theorem drive_of_nil {pool : Pool I} {world : World σ}
    (idle : (pool.dispatchAll world).1.running = []) :
    pool.drive service world = pool.dispatchAll world := by
  rw [drive]
  split
  · rfl
  · next oldest =>
    rw [idle] at oldest
    cases oldest

theorem drive_of_cons {pool : Pool I} {world after : World σ} {chunk : ChunkIndex}
    {task : Task I Ending} {rest : List (ChunkIndex × Task I Ending)} {ending : Ending}
    (oldest : (pool.dispatchAll world).1.running = (chunk, task) :: rest)
    (ended : task.run service (pool.dispatchAll world).2 = (ending, after)) :
    pool.drive service world =
      ({ (pool.dispatchAll world).1 with running := rest }.conclude chunk ending
        after).1.drive service after.release := by
  rw [drive]
  split
  · next idle =>
    rw [oldest] at idle
    cases idle
  · next again =>
    obtain ⟨first, rfl⟩ := List.cons.inj (oldest.symm.trans again)
    obtain ⟨rfl, rfl⟩ := Prod.mk.inj first
    simp only [ended]
    rfl

theorem drive_lockstep (lockstep : service.Lockstep alike) (pool : Pool I)
    (same : World.Alike alike first second) :
    (pool.drive service first).1 = (pool.drive service second).1 ∧
      World.Alike alike (pool.drive service first).2 (pool.drive service second).2 := by
  fun_induction drive pool service first generalizing second with
  | case1 pool first started =>
    rename_i idle
    obtain ⟨pools, after⟩ := pool.dispatchAll_lockstep same
    rw [drive_of_nil (pools ▸ idle)]
    exact ⟨pools, after⟩
  | case2 pool first started chunk task rest oldest ended concluded =>
    rename_i ih
    obtain ⟨pools, after⟩ := pool.dispatchAll_lockstep same
    obtain ⟨ending, later⟩ := task.run_lockstep lockstep after
    have ended : task.run service (pool.dispatchAll second).2 =
        ((task.run service (pool.dispatchAll first).2).1,
          (task.run service (pool.dispatchAll second).2).2) := Prod.ext ending.symm rfl
    rw [drive_of_cons (pools ▸ oldest) ended, ← pools]
    exact ih later.release

end Pool

theorem Flow.run_lockstep (lockstep : service.Lockstep alike) (flow : Flow I α)
    (same : World.Alike alike first second) :
    (flow.run service first).1 = (flow.run service second).1 ∧
      World.Alike alike (flow.run service first).2 (flow.run service second).2 := by
  induction flow generalizing first second with
  | done value => exact ⟨rfl, same⟩
  | ask request next ih =>
    obtain ⟨answer, after⟩ := same.serve lockstep request
    have step (world : World σ) : (Flow.ask request next).run service world =
        (next (world.serve service request).1).run service (world.serve service request).2 := rfl
    rw [step, step, answer]
    exact ih _ after
  | checkpoint next ih =>
    rw [Flow.run, Flow.run, same.cancelled]
    exact ih _ same
  | stage pool next ih =>
    obtain ⟨result, after⟩ := pool.drive_lockstep lockstep same
    have step (world : World σ) : (Flow.stage pool next).run service world =
        (next (pool.drive service world).1.result).run service (pool.drive service world).2 := rfl
    rw [step, step, result]
    exact ih _ after

end Transcode
