/-
**A run that does not resume computes everything anew.** Whatever the ledger answers, whatever the
codec does and whatever others do in between, none of its tasks is skipped.

* `Plan.Gives` says of a plan what its value is like, by its structure alone; a plan is taken apart
  by `Plan.Gives.andThen`, and its jobs say what they give through `Job.Makes`.
* `Run.gives_plan` — the report of a run that does not resume counts every chunk as computed, in
  every stage.
-/
import Transcode.Proofs.Run.Calls
import Transcode.Proofs.Run.Chain

namespace Transcode.Run

variable {σ α β : Type} {setting : Setting interface σ}

theorem Job.ensures_lax (services : Service interface σ → Prop) (job : Job α) (state : σ) :
    job.Ensures services Conduct.lax (fun _ _ => True) (fun _ _ => True) state :=
  (Task.ensures_lax services job.run state).mono fun result _ _ => by cases result <;> trivial

/-! ### What plans give -/

/-- What the value of a plan is like, whatever the answers to its requests. -/
def Plan.Gives (setting : Setting interface σ) (spec : α → Prop) (plan : Plan α) : Prop :=
  ∀ state, plan.Ensures setting Conduct.lax (fun value _ _ => spec value) (fun _ _ => True) state

namespace Plan

variable {spec : α → Prop}

/-- A plan followed by another, which goes on from what the first gives. -/
theorem Gives.andThen {further : β → Prop} {plan : Plan α} {after : α → Plan β}
    (gives : plan.Gives setting spec)
    (onward : ∀ value, spec value → (after value).Gives setting further) :
    (plan >>= after).Gives setting further := by
  intro state
  refine Ensures.bind (fun _ _ _ _ _ => trivial) ((gives state).mono ?_ fun _ _ => id)
  exact fun value later trace holds => onward value holds later

theorem gives_pure {value : α} (holds : spec value) : (pure value : Plan α).Gives setting spec :=
  fun _ => ensures_pure fun _ _ => holds

theorem gives_throw (error : RunError) : (throw error : Plan α).Gives setting spec :=
  fun _ => ensures_throw fun _ _ => trivial

/-- What a job gives, it gives as part of a plan. -/
theorem gives_ofJob {job : Job α} (makes : job.Makes fun value _ => spec value) :
    (ofJob job).Gives setting spec := by
  intro state
  refine (ensures_ofJob (job.ensures_lax setting.services state)).mono ?_ fun _ _ => id
  exact fun value later trace yields => makes trace value yields.2

theorem gives_checkCancelled (stage : Stage) :
    (checkCancelled stage).Gives setting fun _ => True :=
  fun _ => ensures_checkCancelled (fun _ _ => trivial) fun _ _ _ => trivial

/-- A look at what is needed, before a plan. -/
theorem gives_requiring {required : KeySet} {plan : Plan α} (gives : plan.Gives setting spec) :
    (requiring required plan).Gives setting spec := by
  refine Gives.andThen (gives_ofJob fun _ _ _ => trivial) fun found _ => ?_
  cases found with
  | some key => exact gives_throw _
  | none => exact gives

end Plan

/-! ### What jobs give -/

/-- The value of a job in a row is the value of the last. -/
theorem Job.Makes.last {spec : β → Prop} {job : Job α} {after : α → Job β}
    (makes : ∀ value, (after value).Makes fun result _ => spec result) :
    (job >>= after).Makes fun result _ => spec result :=
  Job.Makes.bind fun _ value _ => makes value

variable {run : Run}

/-- A run that does not resume makes its outputs, whether or not they are stored. -/
theorem makes_anew (anew : run.policy ≠ .resume) {spec : α → List Codec.Operation → Prop}
    {keys : List Key} {stored made : Job α} (makes : made.Makes spec) :
    (run.canSkip keys >>= fun skips => if skips then stored else made).Makes spec := by
  rw [canSkip, if_neg anew]
  exact makes

theorem completes_barrierTask (anew : run.policy ≠ .resume) (stage : Stage) (chunk : ChunkIndex) :
    (run.barrierTask stage chunk).Makes fun outcome _ => outcome = .completed :=
  makes_anew anew (Job.Makes.last fun _ => Job.makes_pure rfl)

theorem completes_takeOverState (anew : run.policy ≠ .resume) :
    run.takeOverState.Makes fun result _ => result.2 = .completed :=
  makes_anew anew (Job.Makes.last fun _ => Job.Makes.last fun _ => Job.makes_pure rfl)

theorem completes_takeOverStream (anew : run.policy ≠ .resume) :
    run.takeOverStream.Makes fun result _ => result.2 = .completed :=
  makes_anew anew (Job.Makes.last fun _ => Job.Makes.last fun _ => Job.makes_pure rfl)

theorem completes_rebaseOnto (anew : run.policy ≠ .resume) (previous : ChunkIndex)
    (newState : StateHandle) :
    (run.rebaseOnto previous newState).Makes fun result _ => result.2 = .completed :=
  makes_anew anew (Job.Makes.last fun _ => Job.Makes.last fun _ => Job.Makes.last fun _ =>
    Job.Makes.last fun _ => Job.Makes.last fun _ => Job.Makes.last fun _ => Job.makes_pure rfl)

theorem completes_mergeOnto (anew : run.policy ≠ .resume) (chunk : ChunkIndex)
    (output rebased : Bitstream) :
    (run.mergeOnto chunk output rebased).Makes fun result _ => result.2 = .completed :=
  makes_anew anew (Job.Makes.last fun _ => Job.Makes.last fun _ => Job.makes_pure rfl)

/-- Both tasks of a step of the chain were computed. -/
structure ChainStep.Complete (step : ChainStep) : Prop where
  rebase : step.rebase = .completed
  merge : step.merge = .completed

/-- The two tasks of a step, one after the other. -/
theorem completes_step {first : Job (α × Outcome)} {second : α → Job (β × Outcome)}
    (link : α → β → Link) (rebase : first.Makes fun result _ => result.2 = .completed)
    (merge : ∀ value, (second value).Makes fun result _ => result.2 = .completed) :
    (first >>= fun result => second result.1 >>= fun next =>
      pure (⟨link result.1 next.1, result.2, next.2⟩ : ChainStep)).Makes fun step _ =>
        step.Complete := by
  refine Job.Makes.bind (rebase.mono fun result _ rebased => ?_)
  refine Job.Makes.bind ((merge result.1).mono fun next _ merged => ?_)
  exact Job.makes_pure ⟨rebased, merged⟩

theorem completes_seed (anew : run.policy ≠ .resume) :
    run.seed.Makes fun step _ => step.Complete :=
  completes_step Link.mk (completes_takeOverState anew) fun _ => completes_takeOverStream anew

theorem completes_extend (anew : run.policy ≠ .resume) (previous : ChunkIndex) (link : Link) :
    (run.extend previous link).Makes fun step _ => step.Complete :=
  completes_step (fun encoded output => ⟨encoded.state, output⟩)
    (completes_rebaseOnto anew previous link.state)
    fun encoded : Encoded => completes_mergeOnto anew (previous + 1) link.output encoded.stream

/-! ### The whole run -/

/-- **A barrier stage** computes every chunk. -/
theorem gives_stagePlan (anew : run.policy ≠ .resume) {stage : Stage}
    (barrier : stage.isSerial = false) :
    (run.stagePlan stage).Gives setting fun summary => summary = ⟨stage, run.count, 0⟩ := by
  rw [stagePlan_eq run barrier]
  refine Plan.gives_requiring fun state => ?_
  have pool := Plan.ensures_pool stage (Conduct.compatible_lax run.indices) List.nodup_range
    fun chunk _ => (run.barrierTask stage chunk).ensures_lax setting.services state
  refine pool.mono ?_ fun _ _ _ => trivial
  rintro summary later trace ⟨outcomes, traces, finished, -, rfl⟩
  have completed (chunk : ChunkIndex) (inside : chunk ∈ run.indices) :
      outcomes chunk = .completed :=
    completes_barrierTask anew stage chunk _ _ (finished chunk inside).2
  have all : (run.indices.countP fun chunk => outcomes chunk = .completed) = run.count := by
    rw [List.countP_eq_length.mpr fun chunk inside => by simp [completed chunk inside]]
    exact List.length_range
  have none : (run.indices.countP fun chunk => outcomes chunk = .skipped) = 0 :=
    List.countP_eq_zero.mpr fun chunk inside => by simp [completed chunk inside]
  rw [all, none]

theorem gives_stagePlans (anew : run.policy ≠ .resume) {stages : List Stage}
    (barriers : ∀ stage ∈ stages, stage.isSerial = false) :
    (run.stagePlans stages).Gives setting fun summaries =>
      summaries = stages.map fun stage => ⟨stage, run.count, 0⟩ := by
  induction stages with
  | nil => exact Plan.gives_pure rfl
  | cons stage rest ih =>
    refine (gives_stagePlan anew (barriers stage List.mem_cons_self)).andThen ?_
    rintro summary rfl
    refine (ih fun other member => barriers other (List.mem_cons_of_mem _ member)).andThen ?_
    rintro summaries rfl
    exact Plan.gives_pure rfl

/-- The chain over the chunks that remain computes every one. -/
theorem gives_chainFrom (anew : run.policy ≠ .resume) (previous : ChunkIndex) (link : Link)
    (remaining : Nat) :
    (run.chainFrom previous link remaining).Gives setting fun rest =>
      rest.length = remaining ∧ ∀ step ∈ rest, step.Complete := by
  induction remaining generalizing previous link with
  | zero => exact Plan.gives_pure ⟨rfl, fun step member => absurd member List.not_mem_nil⟩
  | succ remaining ih =>
    refine (Plan.gives_checkCancelled _).andThen fun _ _ => ?_
    refine (Plan.gives_ofJob (completes_extend anew previous link)).andThen fun step here => ?_
    refine (ih (previous + 1) step.link).andThen fun rest ⟨length, others⟩ => ?_
    refine Plan.gives_pure ⟨by rw [List.length_cons, length], ?_⟩
    exact List.forall_mem_cons.mpr ⟨here, others⟩

/-- A tally of nothing but computed tasks. -/
theorem tally_completed {stage : Stage} {outcomes : List Outcome}
    (completed : ∀ outcome ∈ outcomes, outcome = .completed) :
    tally stage outcomes = ⟨stage, outcomes.length, 0⟩ := by
  rw [List.eq_replicate_of_mem completed]
  simp [tally, List.count_replicate]

/-- **The chain** computes every chunk. -/
theorem gives_chain (anew : run.policy ≠ .resume) (positive : 0 < run.count) :
    run.chain.Gives setting fun result =>
      result.rebase = ⟨.rebase, run.count, 0⟩ ∧ result.merge = ⟨.merge, run.count, 0⟩ := by
  rw [chain_eq]
  refine Plan.gives_requiring ?_
  refine (Plan.gives_ofJob (completes_seed anew)).andThen fun first here => ?_
  refine (gives_chainFrom anew 0 first.link (run.count - 1)).andThen fun rest ⟨length, others⟩ => ?_
  have complete : ∀ step ∈ first :: rest, step.Complete :=
    List.forall_mem_cons.mpr ⟨here, others⟩
  have whole : (first :: rest).length = run.count := by
    rw [List.length_cons, length, Nat.sub_add_cancel positive]
  refine Plan.gives_pure ⟨?_, ?_⟩
  · show tally .rebase ((first :: rest).map ChainStep.rebase) = _
    rw [tally_completed (List.forall_mem_map.mpr fun step member => (complete step member).rebase),
      List.length_map, whole]
  · show tally .merge ((first :: rest).map ChainStep.merge) = _
    rw [tally_completed (List.forall_mem_map.mpr fun step member => (complete step member).merge),
      List.length_map, whole]

/-- **A run that does not resume** reports every chunk as computed in every stage. -/
theorem gives_plan (anew : run.policy ≠ .resume) :
    run.plan.Gives setting fun result =>
      result.stages = Stage.all.map fun stage => ⟨stage, run.count, 0⟩ := by
  unfold plan
  cases count : run.count with
  | zero => exact Plan.gives_throw _
  | succ last =>
    refine (gives_stagePlans anew fun stage => Stage.mem_barriers.mp).andThen ?_
    rintro summaries rfl
    refine (Plan.gives_checkCancelled _).andThen fun _ _ => ?_
    refine (gives_chain anew (by rw [count]; exact Nat.succ_pos last)).andThen ?_
    rintro chained ⟨rebase, merge⟩
    refine Plan.gives_pure ?_
    rw [rebase, merge, count, Stage.all, List.map_append]
    rfl

end Transcode.Run
