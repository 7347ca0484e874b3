/-
**A run from beginning to end.**

* `delivers_plan` — from vacant slots, a run fills them all and yields the merged stream of the last
  chunk, unless it ends in an excused error.
* `Blueprint.endsIn` — in reliable surroundings it does so under every schedule, and touches no
  other slot.
* `Blueprint.sound` — in any surroundings, at any moment of any schedule, a slot holds what it held
  before, or what belongs there.
-/
import Transcode.Proofs.Run.Chain
import Transcode.Proofs.Schedule.Termination

namespace Transcode

theorem Run.count_eq_succ {run : Run} (chunks : run.chunks ≠ []) :
    ∃ last, run.count = last + 1 :=
  Nat.exists_eq_succ_of_ne_zero (mt List.length_eq_zero_iff.mp chunks)

namespace Blueprint

open Run

variable {blueprint : Blueprint} {ledger : MemoryLedger}

/-- **The run.** -/
theorem delivers_plan {last : Nat} (count : blueprint.run.count = last + 1)
    (standing : blueprint.Standing (fun _ => False) ledger) :
    blueprint.Delivers blueprint.slots blueprint.slots
      (fun result later => result.output = (blueprint.rows last).merged ∧
        blueprint.Standing (fun _ => True) later)
      blueprint.run.plan ledger := by
  unfold Run.plan
  rw [count]
  refine Delivers.andThen (delivers_barriers standing) fun summaries later reached => ?_
  refine Delivers.bind (Plan.ensures_checkCancelled (fun middle begun => ?_) fun fires _ _ =>
    blueprint.interruptible fires _)
  have ready : blueprint.Standing (chained 0) middle :=
    (reached.later begun).congr fun key _ => by simp [chained]
  refine Delivers.andThen (delivers_chain count ready) ?_
  rintro chained final ⟨output, finished⟩
  exact Plan.ensures_pure fun latest more => ⟨output, finished.later more⟩

/-! ### Alone with the ledger -/

/-- What the run does to the ledger when nobody else is at work. -/
theorem ensures_plan_alone {last : Nat} (count : blueprint.run.count = last + 1)
    (standing : blueprint.Standing (fun _ => False) ledger) :
    blueprint.run.plan.Ensures blueprint.setting
      (blueprint.conduct blueprint.slots blueprint.slots).alone
      (fun result later _ => (result.output = (blueprint.rows last).merged ∧
          blueprint.Standing (fun _ => True) later) ∧
        (blueprint.conduct blueprint.slots blueprint.slots).guarantee ledger later)
      (fun error _ => blueprint.excused error) ledger :=
  Plan.Ensures.and_always
    (Flow.Ensures.within (delivers_plan count standing) (Conduct.within_alone _))
    (fun same before => same ▸ before) (fun kept before => guarantee_trans before kept)
    ((blueprint.conduct _ _).guarantee_refl ledger)

/-- **At any moment** of any schedule, a slot holds what it held before, or what belongs there. -/
theorem sound {last : Nat} (count : blueprint.run.count = last + 1)
    {world world' : World MemoryLedger}
    (standing : blueprint.Standing (fun _ => False) world.state)
    (fires : world.cancelled = true → blueprint.setting.interruptible)
    {trace : List (Exchange interface)} {flow : Flow interface (Except RunError Result)}
    (path : Flow.Path blueprint.setting Eq blueprint.run.plan.run world trace flow world') :
    (blueprint.conduct blueprint.slots blueprint.slots).guarantee world.state world'.state :=
  Flow.Ensures.always (ensures_plan_alone count standing) fires (fun same before => same ▸ before)
    (fun kept before => guarantee_trans before kept)
    ((blueprint.conduct _ _).guarantee_refl world.state) path

/-- **A run that ends in reliable surroundings ends well**: the output is the merged stream of the
last chunk, the slots of the run hold what belongs there, and no other slot has changed. -/
theorem ok_of_path {last : Nat} (count : blueprint.run.count = last + 1)
    (reliable : ¬ blueprint.unreliable) {world world' : World MemoryLedger}
    (quiet : world.cancelled = false)
    (standing : blueprint.Standing (fun _ => False) world.state)
    {trace : List (Exchange interface)} {result : Except RunError Result}
    (path : Flow.Path blueprint.setting Eq blueprint.run.plan.run world trace (.done result)
      world') :
    ∃ value, result = .ok value ∧ value.output = (blueprint.rows last).merged ∧
      (∀ key ∈ runKeys blueprint.run.count, blueprint.Filled key (world'.state.get? key)) ∧
      ∀ key ∉ runKeys blueprint.run.count, world'.state.get? key = world.state.get? key := by
  have fires : world.cancelled = true → blueprint.setting.interruptible := by simp [quiet]
  have ended := (ensures_plan_alone count standing world rfl fires trace _ world' path).2 result rfl
  cases result with
  | error error => exact absurd (blueprint.grounds ended) reliable
  | ok value =>
    obtain ⟨⟨output, finished⟩, others⟩ := ended
    exact ⟨value, rfl, output, fun key mine => finished.filled key mine trivial,
      fun key outside => (others key).resolve_right fun changed => outside changed.1⟩

/-- **In reliable surroundings every schedule ends, and ends well.** -/
theorem endsIn {last : Nat} (count : blueprint.run.count = last + 1)
    (reliable : ¬ blueprint.unreliable)
    (served : ∃ service, blueprint.setting.services service) {world : World MemoryLedger}
    (permits : 0 < world.free) (quiet : world.cancelled = false)
    (standing : blueprint.Standing (fun _ => False) world.state) :
    Flow.EndsIn blueprint.setting.services
      (fun result world' => ∃ value, result = .ok value ∧
        value.output = (blueprint.rows last).merged ∧
        (∀ key ∈ runKeys blueprint.run.count, blueprint.Filled key (world'.state.get? key)) ∧
        ∀ key ∉ runKeys blueprint.run.count, world'.state.get? key = world.state.get? key)
      blueprint.run.plan.run world :=
  Flow.endsIn_of_path served (Nat.add_pos_left permits _) fun _ _ _ path =>
    ok_of_path count reliable quiet standing path

end Blueprint

end Transcode
