/-
**The schedule that is driven is one of the schedules.**

* `Pool.path_drive` — running the task that has waited longest, again and again, takes a stage
  through single steps until it is over.
* `Flow.path_run` — so `Flow.run` is a path to its own value, as long as there are workers.
-/
import Transcode.Proofs.Schedule.Ensures
import Transcode.Proofs.Schedule.Termination

namespace Transcode

variable {I : Interface} {σ α : Type} {setting : Setting I σ}

namespace Pool

variable (next : Except RunError StageSummary → Flow I α)

/-- Starting chunks as long as that is possible. -/
theorem path_dispatchAll (pool : Pool I) (world : World σ) :
    Flow.Path setting Eq (.stage pool next) world [] (.stage (pool.dispatchAll world).1 next)
      (pool.dispatchAll world).2 := by
  fun_induction dispatchAll pool world with
  | case1 => exact .start
  | case2 pool world pool' world' started ih =>
    exact Flow.Path.append (.step .start (.stage (.dispatch started))) ih

/-- Running the oldest task to its end. -/
theorem path_oldest {service : Service I σ} (serves : setting.services service)
    {task : Task I Ending} {chunk : ChunkIndex} {rest : List (ChunkIndex × Task I Ending)}
    {pool : Pool I} {world : World σ} (oldest : pool.running = (chunk, task) :: rest) :
    ∃ trace, Flow.Path setting Eq (.stage pool next) world trace
      (.stage ({ pool with running := rest }.conclude chunk (task.run service world).1
        (task.run service world).2).1 next)
      ({ pool with running := rest }.conclude chunk (task.run service world).1
        (task.run service world).2).2 := by
  induction task generalizing pool world with
  | done ending =>
    have moved : pool.advance service 0 world =
        some ({ pool with running := rest }.conclude chunk ending world) := by
      simp [advance, oldest]
    exact ⟨_, .step .start (.stage (.advance serves moved))⟩
  | ask request onward ih =>
    let asked : Pool I :=
      { pool with running := (chunk, onward (world.serve service request).1) :: rest }
    have moved : pool.advance service 0 world =
        some (asked, (world.serve service request).2) := by
      simp [advance, oldest, asked]
    have front : asked.running = (chunk, onward (world.serve service request).1) :: rest := rfl
    obtain ⟨trace, path⟩ := ih _ front
    exact ⟨_, Flow.Path.append (.step .start (.stage (.advance serves moved))) path⟩

/-- A stage that no chunk can be started in, and no task is under way in, is over. -/
theorem isSettled_of_dispatch_eq_none {pool : Pool I} {world : World σ} (free : 0 < world.free)
    (stuck : pool.dispatch world = none) (idle : pool.running = []) :
    pool.isSettled world = true := by
  unfold dispatch at stuck
  split at stuck
  · next waiting => simp [isSettled, isClosed, waiting, idle]
  · split at stuck
    · next closed =>
      simp only [Bool.or_eq_true, decide_eq_true_eq, Nat.ne_of_gt free, or_false] at closed
      simpa [isSettled, isClosed, idle, or_assoc] using .inr closed
    · cases stuck

theorem dispatch_dispatchAll (pool : Pool I) (world : World σ) :
    (pool.dispatchAll world).1.dispatch (pool.dispatchAll world).2 = none := by
  fun_induction dispatchAll pool world with
  | case1 pool world stuck => exact stuck
  | case2 pool world pool' world' started ih => exact ih

theorem permits_dispatchAll (pool : Pool I) (world : World σ)
    (permits : 0 < world.free + pool.running.length) :
    0 < (pool.dispatchAll world).2.free + (pool.dispatchAll world).1.running.length := by
  fun_induction dispatchAll pool world with
  | case1 => exact permits
  | case2 pool world pool' world' started ih =>
    refine ih (Nat.add_pos_right _ ?_)
    rw [(waiting_of_dispatch started).2]
    exact Nat.succ_pos _

/-- **Driving a stage** takes it to its end in single steps. -/
theorem path_drive {service : Service I σ} (serves : setting.services service) (pool : Pool I)
    (world : World σ) (permits : 0 < world.free + pool.running.length) :
    (pool.drive service world).1.isSettled (pool.drive service world).2 = true ∧
      0 < (pool.drive service world).2.free ∧
      ∃ trace, Flow.Path setting Eq (.stage pool next) world trace
        (.stage (pool.drive service world).1 next) (pool.drive service world).2 := by
  have begun := permits_dispatchAll pool world permits
  fun_induction drive pool service world with
  | case1 pool world started oldest =>
    rw [oldest] at begun
    exact ⟨isSettled_of_dispatch_eq_none begun (dispatch_dispatchAll pool world) oldest, begun,
      [], path_dispatchAll next pool world⟩
  | case2 pool world started chunk task rest oldest ended concluded ih =>
    have free : 0 < concluded.2.free + concluded.1.running.length :=
      Nat.add_pos_left (Nat.succ_pos _) _
    obtain ⟨settled, left, trace, path⟩ := ih free (permits_dispatchAll _ _ free)
    obtain ⟨first, toEnd⟩ := path_oldest next serves oldest
    exact ⟨settled, left, _, (path_dispatchAll next pool world).append (toEnd.append path)⟩

end Pool

namespace Flow

/-- **Taking a run to its end** is one of its paths. -/
theorem path_run {service : Service I σ} (serves : setting.services service) (flow : Flow I α)
    (world : World σ) (permits : 0 < world.free + flow.holding) :
    ∃ trace, Path setting Eq flow world trace (.done (flow.run service world).1)
      (flow.run service world).2 := by
  induction flow generalizing world with
  | done value => exact ⟨[], .start⟩
  | ask request next ih =>
    obtain ⟨trace, path⟩ := ih _ (world.serve service request).2 (Nat.add_pos_left permits _)
    exact ⟨_, Path.append (.step .start (.ask serves)) path⟩
  | checkpoint next ih =>
    obtain ⟨trace, path⟩ := ih _ world (Nat.add_pos_left permits _)
    exact ⟨_, Path.append (.step .start .checkpoint) path⟩
  | stage pool next ih =>
    obtain ⟨settled, free, first, toEnd⟩ :=
      Pool.path_drive next serves pool world permits
    obtain ⟨trace, path⟩ := ih _ (pool.drive service world).2 (Nat.add_pos_left free _)
    exact ⟨_, Path.append (toEnd.step (.settle settled)) path⟩

end Flow

end Transcode
