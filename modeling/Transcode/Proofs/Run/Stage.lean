/-
**The parts of a run.** In a barrier stage the jobs of the chunks work side by side; their values and
errors become those of the stage. Stages and chain follow one another.

* `Plan.ensures_pool` — a stage that succeeds has the value of every job, and one that fails has the
  error of one of them, or was interrupted.
* `Run.stagePlan_eq` — a barrier stage is a look at what it needs, and then its pool; `Run.chain_eq`
  says the same of the chain.
* `Run.Composes.plan` — what its parts have and plans have together, a run has.
-/
import Transcode.Proofs.Run.Job
import Transcode.Proofs.Schedule.Stage
import Transcode.Run.Coordinator

namespace Transcode.Run

variable {σ : Type}

/-- A job as the task of a chunk, in a stage. -/
def Job.task (job : Job Outcome) (stage : Stage) : Task interface Ending := do
  let result ← job.run
  pure (Ending.ofResult stage result)

/-- An ending contributes to the failure of the stage just the error that the job had. -/
theorem failure?_ofResult (stage : Stage) (result : Except RunError Outcome) :
    Pool.failure? stage (.ofResult stage result) =
      match result with
      | .ok _ => none
      | .error error => some error := by
  cases result with
  | ok outcome => rfl
  | error error =>
    by_cases panics : error = .internal (.taskPanicked stage)
    · rw [Ending.ofResult, if_pos panics, panics]
      rfl
    · rw [Ending.ofResult, if_neg panics]
      rfl

/-- A task that has failed has the error of its job. -/
theorem eq_error_of_failed {stage : Stage} {result : Except RunError Outcome} {error : RunError}
    (same : .failed error = Ending.ofResult stage result) : result = .error error := by
  have reason := failure?_ofResult stage result
  rw [← same] at reason
  cases result with
  | ok outcome => cases reason
  | error other =>
    cases reason
    rfl

/-- What is stated of the ending of a task that is a job: a panic is one of the errors of the
job. -/
def Conclusion (stage : Stage) (statement : Outcome → σ → Prop) (excuse : RunError → σ → Prop) :
    Ending → σ → Prop
  | .finished outcome, state => statement outcome state
  | .failed error, state => excuse error state
  | .panicked, state => excuse (.internal (.taskPanicked stage)) state

section Conclusion

variable {stage : Stage} {statement : Outcome → σ → Prop} {excuse : RunError → σ → Prop}
  {ending : Ending} {state : σ}

/-- A job that is excused is so as a task. -/
theorem Conclusion.of_error {error : RunError} (excused : excuse error state) :
    Conclusion stage statement excuse (.ofResult stage (.error error)) state := by
  by_cases panics : error = .internal (.taskPanicked stage)
  · subst panics
    rw [Ending.ofResult, if_pos rfl]
    exact excused
  · rw [Ending.ofResult, if_neg panics]
    exact excused

/-- A task that nothing excuses has finished. -/
theorem Conclusion.exists_outcome
    (holds : Conclusion stage statement (fun _ _ => False) ending state) :
    ∃ outcome, ending = .finished outcome ∧ statement outcome state := by
  cases ending with
  | finished outcome => exact ⟨outcome, rfl, holds⟩
  | failed error => exact holds.elim
  | panicked => exact holds.elim

/-- The error of a task is excused. -/
theorem Conclusion.excused (holds : Conclusion stage statement excuse ending state)
    {error : RunError} (reason : Pool.failure? stage ending = some error) : excuse error state := by
  cases ending with
  | finished outcome => cases reason
  | failed other =>
    cases reason
    exact holds
  | panicked =>
    cases reason
    exact holds

end Conclusion

namespace Job

variable {services : Service interface σ → Prop} {conduct : Conduct σ}
  {excuse : RunError → σ → Prop} {stage : Stage}

/-- The task of a chunk ends as its job does. -/
theorem Ensures.task {statement : Outcome → σ → Prop} {job : Job Outcome} {state : σ}
    (ensures : Ensures services conduct statement excuse job state) (stage : Stage) :
    (job.task stage).Ensures services conduct (Conclusion stage statement excuse) state := by
  refine Task.Ensures.bind ((Task.Ensures.steady ensures).mono fun result later settled => ?_)
  cases result with
  | ok outcome => exact settled
  | error error => exact fun further calm => Conclusion.of_error (settled further calm)

/-- The task of a chunk asks what its job asks, and ends as that does. -/
theorem yields_task {job : Job Outcome} {trace : List (Exchange interface)} {ending : Ending}
    (yields : (job.task stage).Yields trace ending) :
    ∃ result, ending = Ending.ofResult stage result ∧ job.run.Yields trace result := by
  obtain ⟨first, second, result, rfl, here, there⟩ := Task.Yields.of_bind yields
  cases there
  exact ⟨result, rfl, (List.append_nil first).symm ▸ here⟩

theorem yields_of_task {job : Job Outcome} {trace : List (Exchange interface)} {outcome : Outcome}
    (yields : (job.task stage).Yields trace (.finished outcome)) :
    job.run.Yields trace (.ok outcome) := by
  obtain ⟨result, same, here⟩ := yields_task yields
  have reason := failure?_ofResult stage result
  rw [← same] at reason
  cases result with
  | error error => cases reason
  | ok value =>
    cases same
    exact here

end Job

/-- **A stage as part of a plan.** -/
theorem Plan.ensures_pool {setting : Setting interface σ} {whole : Conduct σ}
    {each : ChunkIndex → Conduct σ} {statement : ChunkIndex → Outcome → σ → Prop}
    {excuse : ChunkIndex → RunError → σ → Prop} (stage : Stage) {chunks : List ChunkIndex}
    {job : ChunkIndex → Job Outcome} {state : σ} (compatible : whole.Compatible each chunks)
    (distinct : chunks.Nodup)
    (promises : ∀ chunk ∈ chunks, (job chunk).Ensures setting.services (each chunk)
      (statement chunk) (excuse chunk) state) :
    Plan.Ensures setting whole
      (fun summary later trace =>
        ∃ (outcomes : ChunkIndex → Outcome) (traces : ChunkIndex → List (Exchange interface)),
        (∀ chunk ∈ chunks, statement chunk (outcomes chunk) later ∧
          (job chunk).run.Yields (traces chunk) (.ok (outcomes chunk))) ∧
        trace.Perm (chunks.flatMap traces) ∧
        summary = ⟨stage, chunks.countP fun chunk => outcomes chunk = .completed,
          chunks.countP fun chunk => outcomes chunk = .skipped⟩)
      (fun error later => (∃ chunk ∈ chunks, excuse chunk error later) ∨ setting.interruptible)
      (ExceptT.mk (Flow.ofPool (Pool.start stage chunks fun chunk => (job chunk).task stage)))
      state := by
  refine Flow.Ensures.mono (Flow.ensures_ofPool compatible distinct fun chunk member =>
    (promises chunk member).task stage) ?_
  rintro result later trace ⟨traces, pool, account, idle, stopped, rfl⟩
  cases ended : pool.result with
  | ok summary =>
    obtain ⟨outcomes, finished, counts⟩ := account.finished_of_ok distinct idle ended
    exact ⟨outcomes, traces, fun chunk member => ⟨(finished chunk member).1,
      Job.yields_of_task (finished chunk member).2⟩, account.requests, counts⟩
  | error error =>
    rcases account.reason_of_error stopped ended with ⟨chunk, member, _, holds, reason⟩ | fires
    · exact .inl ⟨chunk, member, holds.excused reason⟩
    · exact .inr fires

/-- A part of a plan that starts only if all that it requires is stored. -/
def Plan.requiring {α : Type} (required : KeySet) (plan : Plan α) : Plan α :=
  Plan.ofJob (firstMissing required) >>= fun
    | some key => throw (.notFound key)
    | none => plan

theorem Plan.requiring_eq {α : Type} (required : KeySet) (plan : Plan α) :
    Plan.requiring required plan = Plan.ofJob (firstMissing required) >>= fun found =>
      found.elim plan fun key => throw (.notFound key) :=
  congrArg (Plan.ofJob (firstMissing required) >>= ·) (funext fun found => by cases found <;> rfl)

/-- A barrier stage opens its pool if nothing is missing. -/
theorem stagePlan_eq (run : Run) {stage : Stage} (barrier : stage.isSerial = false) :
    run.stagePlan stage = Plan.requiring (stage.barrierInputs run.count)
      (ExceptT.mk (Flow.ofPool (Pool.start stage run.indices fun chunk =>
        (run.barrierTask stage chunk).task stage))) := by
  unfold stagePlan Plan.requiring
  rw [barrier]
  refine congrArg (Plan.ofJob (firstMissing _) >>= ·) (funext fun found => ?_)
  cases found <;> rfl

/-- The chain begins with its seed if nothing is missing. -/
theorem chain_eq (run : Run) : run.chain = Plan.requiring (chainInputs run.count)
    (Plan.ofJob run.seed >>= fun first =>
      run.chainFrom 0 first.link (run.count - 1) >>= fun rest =>
        pure ⟨(rest.getLastD first).link.output,
          tally .rebase ((first :: rest).map ChainStep.rebase),
          tally .merge ((first :: rest).map ChainStep.merge)⟩) := by
  refine congrArg (Plan.ofJob (firstMissing _) >>= ·) (funext fun found => ?_)
  cases found <;> rfl

/-! ### Properties of all parts -/

/-- **A property of plans that the parts of the run have**, and that plans have together if each of
them has it. -/
structure Composes (run : Run) (holds : ∀ {α : Type}, Plan α → Prop) : Prop where
  value : ∀ {α : Type} (value : α), holds (pure value)
  error : ∀ {α : Type} (error : RunError), holds (throw error : Plan α)
  bind : ∀ {α β : Type} {plan : Plan α} {after : α → Plan β}, holds plan →
    (∀ value, holds (after value)) → holds (plan >>= after)
  look : ∀ required, holds (Plan.ofJob (firstMissing required))
  token : ∀ stage, holds (Plan.checkCancelled stage)
  pool : ∀ stage, holds (ExceptT.mk (Flow.ofPool (Pool.start stage run.indices fun chunk =>
    (run.barrierTask stage chunk).task stage)))
  seed : holds (Plan.ofJob run.seed)
  extend : ∀ previous link, holds (Plan.ofJob (run.extend previous link))

namespace Composes

variable {run : Run} {holds : ∀ {α : Type}, Plan α → Prop} (composes : run.Composes holds)

include composes

theorem requiring {α : Type} {required : KeySet} {plan : Plan α} (rest : holds plan) :
    holds (Plan.requiring required plan) := by
  refine composes.bind (composes.look required) fun found => ?_
  cases found with
  | some key => exact composes.error _
  | none => exact rest

theorem stagePlans {stages : List Stage} (barriers : ∀ stage ∈ stages, stage.isSerial = false) :
    holds (run.stagePlans stages) := by
  induction stages with
  | nil => exact composes.value _
  | cons stage rest ih =>
    obtain ⟨barrier, others⟩ := List.forall_mem_cons.mp barriers
    have first : holds (run.stagePlan stage) := by
      rw [stagePlan_eq run barrier]
      exact composes.requiring (composes.pool stage)
    exact composes.bind first fun _ => composes.bind (ih others) fun _ => composes.value _

theorem chainFrom (previous : ChunkIndex) (link : Link) (remaining : Nat) :
    holds (run.chainFrom previous link remaining) := by
  induction remaining generalizing previous link with
  | zero => exact composes.value _
  | succ remaining ih =>
    exact composes.bind (composes.token _) fun _ =>
      composes.bind (composes.extend previous link) fun step =>
        composes.bind (ih (previous + 1) step.link) fun _ => composes.value _

theorem chain : holds run.chain := by
  rw [chain_eq]
  exact composes.requiring (composes.bind composes.seed fun first =>
    composes.bind (composes.chainFrom 0 first.link _) fun _ => composes.value _)

/-- **What the parts of a run have, the run has.** -/
theorem plan : holds run.plan := by
  unfold Run.plan
  cases run.count with
  | zero => exact composes.error _
  | succ last =>
    exact composes.bind (composes.stagePlans fun stage => Stage.mem_barriers.mp) fun _ =>
      composes.bind (composes.token _) fun _ =>
        composes.bind composes.chain fun _ => composes.value _

end Composes

end Transcode.Run
