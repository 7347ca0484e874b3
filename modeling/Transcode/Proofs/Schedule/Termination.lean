/-
**Every schedule comes to an end.**

* `Flow.acc_follows` — no run takes infinitely many steps, whichever task is next and whatever the
  answers are: starting a chunk leaves fewer waiting, and a question or an end takes one running
  task further down its tree.
* `Flow.exists_step` — no run gets stuck as long as a permit is free or a task of its own holds one.
* `Flow.EndsIn` says that a run ends as stated under every schedule. It holds as soon as every
  schedule that does end, ends so (`Flow.endsIn_of_path`).
-/
import Mathlib.Logic.Hydra
import Mathlib.Tactic.Abel
import Transcode.Proofs.Schedule.Step

namespace Transcode

open Relation

variable {I : Interface} {σ α β : Type}

/-! ### Progress downwards -/

/-- A task after the answer to its next question. -/
inductive Task.Follows : Task I α → Task I α → Prop
  | answer (request : I.Request) (next : I.Answer request → Task I α)
      (answer : I.Answer request) : Follows (next answer) (.ask request next)

/-- A task asks finitely many questions. -/
theorem Task.follows_wellFounded : WellFounded (Task.Follows : Task I α → Task I α → Prop) := by
  refine ⟨fun task => ?_⟩
  induction task with
  | done value => exact ⟨_, fun later follows => by cases follows⟩
  | ask request next ih =>
    refine ⟨_, fun later follows => ?_⟩
    cases follows
    exact ih _

namespace Pool

/-- What is left of a stage: the chunks to start, and the tasks under way. -/
def remaining (pool : Pool I) : Nat × Multiset (Task I Ending) :=
  (pool.waiting.length, pool.running.map Prod.snd)

/-- A stage that is further on: fewer chunks wait, or a running task has moved. -/
def Follows (later pool : Pool I) : Prop :=
  Prod.Lex (· < ·) (CutExpand Task.Follows) later.remaining pool.remaining

theorem follows_wellFounded : WellFounded (Follows : Pool I → Pool I → Prop) :=
  InvImage.wf remaining
    (WellFounded.prod_lex Nat.lt_wfRel.wf Task.follows_wellFounded.cutExpand)

/-- **Every step of a stage takes it further on.** -/
theorem Step.follows {services : Service I σ → Prop} {pool pool' : Pool I}
    {world world' : World σ} {trace : List (Exchange I)}
    (step : Step services pool world trace pool' world') : Follows pool' pool := by
  rcases step.cases with ⟨chunk, rest, shape, _, _, _, _, _, rfl⟩ |
    ⟨before, chunk, request, next, after, service, _, shape, _, _, rfl⟩ |
    ⟨before, chunk, ending, after, shape, _, concluded⟩
  · refine Prod.Lex.left _ _ ?_
    simp [shape]
  · refine Prod.Lex.right _ ⟨{next (world.serve service request).1}, .ask request next, ?_, ?_⟩
    · intro later member
      rw [Multiset.mem_singleton.mp member]
      exact .answer request next _
    · simp only [shape, List.map_append, List.map_cons, ← Multiset.coe_add,
        ← Multiset.cons_coe, ← Multiset.singleton_add]
      abel
  · cases concluded
    refine Prod.Lex.right _ ⟨0, .done ending, fun later member => ?_, ?_⟩
    · exact absurd member (Multiset.notMem_zero _)
    · simp only [shape, List.map_append, List.map_cons, ← Multiset.coe_add,
        ← Multiset.cons_coe, ← Multiset.singleton_add]
      abel

end Pool

namespace Flow

/-- A run after one of the steps that it can take. -/
def Follows (services : Service I σ → Prop) (later flow : Flow I α) : Prop :=
  ∃ world trace world', Step services flow world trace later world'

/-- **No run takes infinitely many steps.** -/
theorem acc_follows (services : Service I σ → Prop) (flow : Flow I α) :
    Acc (Follows services) flow := by
  induction flow with
  | done value => exact ⟨_, fun later ⟨_, _, _, step⟩ => by cases step⟩
  | ask request next ih =>
    refine ⟨_, fun later ⟨_, _, _, step⟩ => ?_⟩
    cases step
    exact ih _
  | checkpoint next ih =>
    refine ⟨_, fun later ⟨_, _, _, step⟩ => ?_⟩
    cases step
    exact ih _
  | stage pool next ih =>
    induction pool using Pool.follows_wellFounded.induction with
    | _ pool further =>
      refine ⟨_, fun later ⟨_, _, _, step⟩ => ?_⟩
      cases step with
      | stage moved => exact further _ moved.follows
      | settle settled => exact ih _

/-! ### Progress at all -/

/-- How many tasks of the run hold a permit. -/
def holding : Flow I α → Nat
  | stage pool _ => pool.running.length
  | _ => 0

/-- A run that is not done can take a step, if a permit is free or a task of its own holds one. -/
theorem exists_step {services : Service I σ → Prop} (served : ∃ service, services service)
    {flow : Flow I α} {world : World σ} (permits : 0 < world.free + flow.holding)
    (unfinished : ∀ value, flow ≠ .done value) :
    ∃ trace later world', Step services flow world trace later world' := by
  obtain ⟨service, serves⟩ := served
  cases flow with
  | done value => exact absurd rfl (unfinished value)
  | ask request next => exact ⟨_, _, _, .ask serves⟩
  | checkpoint next => exact ⟨_, _, _, .checkpoint⟩
  | stage pool next =>
    cases running : pool.running with
    | cons first rest =>
      obtain ⟨chunk, task⟩ := first
      have front : pool.running[0]? = some (chunk, task) := by rw [running]; rfl
      obtain ⟨moved, advance⟩ : ∃ moved, pool.advance service 0 world = some moved := by
        cases task <;> simp [Pool.advance, front]
      exact ⟨_, _, _, .stage (.advance serves advance)⟩
    | nil =>
      have free : 0 < world.free := by simpa [holding, running] using permits
      by_cases closed : pool.isClosed world = true
      · exact ⟨_, _, _, .settle (by simp [Pool.isSettled, closed, running])⟩
      · simp only [Pool.isClosed, Bool.or_eq_true, List.isEmpty_iff, not_or,
          Bool.not_eq_true] at closed
        obtain ⟨chunk, rest, waiting⟩ := List.exists_cons_of_ne_nil closed.1.1
        obtain ⟨moved, dispatch⟩ : ∃ moved, pool.dispatch world = some moved := by
          simp [Pool.dispatch, waiting, closed.1.2, closed.2, Nat.ne_of_gt free]
        exact ⟨_, _, _, .stage (.dispatch dispatch)⟩

/-- A step keeps a permit within reach. -/
theorem Step.permits {services : Service I σ → Prop} {flow later : Flow I α}
    {world world' : World σ} {trace : List (Exchange I)}
    (step : Step services flow world trace later world')
    (permits : 0 < world.free + flow.holding) : 0 < world'.free + later.holding := by
  cases step with
  | ask serves => exact Nat.add_pos_left permits _
  | checkpoint => exact Nat.add_pos_left permits _
  | settle settled =>
    simp only [Pool.isSettled, Bool.and_eq_true, List.isEmpty_iff] at settled
    rw [holding, settled.2] at permits
    exact Nat.add_pos_left permits _
  | stage moved =>
    simp only [holding] at permits ⊢
    rcases moved.cases with ⟨chunk, rest, _, _, _, free, _, rfl, rfl⟩ |
      ⟨before, chunk, request, next, after, service, _, shape, _, rfl, rfl⟩ |
      ⟨before, chunk, ending, after, _, _, concluded⟩
    · simp [World.acquire]
    · simp [World.serve]
    · cases concluded
      simp [World.release]

/-! ### All schedules -/

/-- **Whatever the schedule, the run comes to an end, and there the statement holds.** -/
inductive EndsIn (services : Service I σ → Prop) (statement : α → World σ → Prop) :
    Flow I α → World σ → Prop
  | done {value : α} {world : World σ} (holds : statement value world) :
      EndsIn services statement (.done value) world
  | step {flow : Flow I α} {world : World σ}
      (possible : ∃ trace later world', Step services flow world trace later world')
      (every : ∀ {trace : List (Exchange I)} {later : Flow I α} {world' : World σ},
        Step services flow world trace later world' → EndsIn services statement later world') :
      EndsIn services statement flow world

theorem EndsIn.mono {services : Service I σ → Prop} {statement weaker : α → World σ → Prop}
    {flow : Flow I α} {world : World σ} (ends : EndsIn services statement flow world)
    (implies : ∀ value world, statement value world → weaker value world) :
    EndsIn services weaker flow world := by
  induction ends with
  | done holds => exact .done (implies _ _ holds)
  | step possible _ ih => exact .step possible ih

/-- Two statements about the end of a run hold together wherever it ends. -/
theorem EndsIn.meets {services : Service I σ → Prop} {statement further : α → World σ → Prop}
    {flow : Flow I α} {world : World σ} (ends : EndsIn services statement flow world)
    (also : EndsIn services further flow world) :
    ∃ value world, statement value world ∧ further value world := by
  induction ends with
  | @done value world holds =>
    cases also with
    | done too => exact ⟨value, world, holds, too⟩
    | step possible _ =>
      obtain ⟨_, _, _, step⟩ := possible
      cases step
  | step possible every ih =>
    obtain ⟨_, _, _, step⟩ := possible
    cases also with
    | done too => cases step
    | step _ rest => exact ih step (rest step)

/-- A fresh pool of workers has a permit to give. -/
theorem free_fresh (concurrency : Nat) (state : σ) : 0 < (World.fresh concurrency state).free :=
  Nat.lt_of_lt_of_le Nat.one_pos (Nat.le_max_right concurrency 1)

/-- A run ends as stated under every schedule if each schedule that ends, ends so. -/
theorem endsIn_of_path {setting : Setting I σ} (served : ∃ service, setting.services service)
    {statement : α → World σ → Prop} {flow : Flow I α} {world : World σ}
    (permits : 0 < world.free + flow.holding)
    (holds : ∀ trace value world',
      Path setting Eq flow world trace (.done value) world' → statement value world') :
    EndsIn setting.services statement flow world := by
  suffices ∀ flow' : Flow I α, Acc (Follows setting.services) flow' → ∀ trace world',
      Path setting Eq flow world trace flow' world' → 0 < world'.free + flow'.holding →
      EndsIn setting.services statement flow' world' from
    this flow (acc_follows _ flow) [] world .start permits
  intro flow' further
  induction further with
  | intro flow' _ ih =>
    intro trace world' path permits
    by_cases finished : ∃ value, flow' = .done value
    · obtain ⟨value, rfl⟩ := finished
      exact .done (holds _ _ _ path)
    · refine .step (exists_step served permits fun value same => finished ⟨value, same⟩) ?_
      intro now later world'' step
      exact ih later ⟨_, _, _, step⟩ _ _ (path.step step) (step.permits permits)

end Flow

end Transcode
