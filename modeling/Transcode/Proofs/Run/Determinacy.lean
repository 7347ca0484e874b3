/-
**The schedule does not matter to a run that ends well.** Codec calls have the answers of one codec;
only the order of the steps is open.

* What others do outside of the footprint of a task, the task does not notice (`ensures_alone`); so
  the tasks of one stage do not notice one another (`settled_pool`).
* `Plan.Settled` holds of a plan that comes to the same value and the same ledger under every
  schedule, or fails under every schedule. `Run.settled_plan` — runs are settled.
-/
import Transcode.Proofs.Run.Footprint
import Transcode.Proofs.Run.Serves

namespace Transcode.Run

variable {α β : Type} {codec : Codec} {ledger later : MemoryLedger}
  {seen own : Key → Prop}

/-! ### Within a footprint -/

/-- **A request within a footprint** does not notice what is outside, and leaves it alone. -/
theorem reply_alike (codec : Codec) {request : Request} (within : Within seen own request)
    (alike : Alike seen ledger later) :
    ((inMemory codec).reply request later).answer =
        ((inMemory codec).reply request ledger).answer ∧
      Alike seen ((inMemory codec).reply request ledger).state
        ((inMemory codec).reply request later).state ∧
      Alike (fun key => ¬ own key) later ((inMemory codec).reply request later).state := by
  cases request with
  | codec call => exact ⟨rfl, alike, Alike.refl _ later⟩
  | ledger op => exact answer_alike within alike

/-- **The conduct of a task within a footprint**: the others leave alone what it sees, and it leaves
alone what is not its own. -/
def sharing (seen own : Key → Prop) : Conduct MemoryLedger where
  rely := Alike seen
  guarantee := Alike fun key => ¬ own key
  rely_refl := Alike.refl seen
  rely_trans := Alike.trans
  guarantee_refl := Alike.refl _

/-- **A task within its footprint** comes to what it comes to alone, whatever others do. -/
theorem ensures_alone (codec : Codec) {task : Task interface α}
    (asks : task.Asks (Within seen own)) (world : World MemoryLedger)
    (alike : Alike seen world.state ledger) :
    task.Ensures (exactly codec).services (sharing seen own)
      (fun value later => value = (task.run (inMemory codec) world).1 ∧
        Alike seen (task.run (inMemory codec) world).2.state later) ledger := by
  induction task generalizing world ledger with
  | done value => exact fun later allowed => ⟨rfl, alike.trans allowed⟩
  | ask request next ih =>
    rintro later allowed _ rfl
    obtain ⟨same, after, kept⟩ := reply_alike codec asks.1 (alike.trans allowed)
    refine ⟨kept, ?_⟩
    rw [same]
    exact ih _ (asks.2 _) _ after

/-- What a job comes to that has the ledger to itself, and the ledger that it leaves. -/
def Job.alone (codec : Codec) (job : Job α) (ledger : MemoryLedger) :
    Except RunError α × MemoryLedger :=
  let (result, world) := Task.run (inMemory codec) job.run ⟨0, false, ledger⟩
  (result, world.state)

/-- **A job within its footprint**, its value and its error apart. -/
theorem Job.ensures_alone (codec : Codec) {job : Job α} (asks : job.Asks (Within seen own))
    (ledger : MemoryLedger) :
    job.Ensures (exactly codec).services (sharing seen own)
      (fun value later => (job.alone codec ledger).1 = .ok value ∧
        Alike seen (job.alone codec ledger).2 later)
      (fun error _ => (job.alone codec ledger).1 = .error error) ledger := by
  refine (Run.ensures_alone codec asks ⟨0, false, ledger⟩ (Alike.refl seen ledger)).mono ?_
  rintro result later ⟨same, alike⟩
  cases result with
  | ok value => exact ⟨same.symm, alike⟩
  | error error => exact same.symm

/-! ### Tasks of one stage -/

/-- The slots that the tasks of a stage fill. -/
def FilledIn (stage : Stage) (chunks : List ChunkIndex) (key : Key) : Prop :=
  key.chunk ∈ chunks ∧ key ∈ stage.outputs key.chunk

instance (stage : Stage) (chunks : List ChunkIndex) : DecidablePred (FilledIn stage chunks) :=
  fun _ => inferInstanceAs (Decidable (_ ∧ _))

theorem filledIn_of_mem {stage : Stage} {chunks : List ChunkIndex} {chunk : ChunkIndex}
    (member : chunk ∈ chunks) {key : Key} (written : key ∈ stage.outputs chunk) :
    FilledIn stage chunks key := by
  obtain ⟨-, rfl⟩ := Stage.stage_and_chunk_of_mem_outputs written
  exact ⟨member, written⟩

/-- Tasks of one stage do not notice one another. -/
theorem compatible_sharing (stage : Stage) (chunks : List ChunkIndex) :
    (sharing (fun _ => True) (FilledIn stage chunks)).Compatible
      (fun chunk => sharing (SeenBy stage chunk) (· ∈ stage.outputs chunk)) chunks := by
  constructor
  · exact fun chunk member => ⟨fun alike key _ => alike key trivial,
      fun alike key outside => alike key fun written => outside (filledIn_of_mem member written)⟩
  · intro chunk _ other _ differs ledger later alike key sees
    refine alike key fun written => ?_
    obtain ⟨own, here⟩ := Stage.stage_and_chunk_of_mem_outputs written
    rcases sees with again | elsewhere
    · exact differs (here.symm.trans (Stage.stage_and_chunk_of_mem_outputs again).2)
    · exact elsewhere own

/-! ### Plans -/

/-- The conduct of a run that has its ledger to itself. -/
def calm : Conduct MemoryLedger :=
  sharing (fun _ => True) fun _ => True

/-- **Whatever the schedule**, the plan comes to the same value and leaves the same in every slot;
or it fails whatever the schedule. -/
def Plan.Settled (codec : Codec) (plan : Plan α) : Prop :=
  ∀ ledger : MemoryLedger,
    (∃ value view, plan.Ensures (exactly codec) calm
      (fun result later _ => result = value ∧ later.get? = view) (fun _ _ => False) ledger) ∨
    plan.Ensures (exactly codec) calm (fun _ _ _ => False) (fun _ _ => True) ledger

namespace Plan

/-- The same ledger as far as its slots go. -/
theorem view_of_calm {view : Key → Option Artifact} (allowed : calm.rely ledger later)
    (same : ledger.get? = view) : later.get? = view :=
  (funext fun key => allowed key trivial).trans same

theorem Settled.bind {plan : Plan α} {after : α → Plan β} (settled : plan.Settled codec)
    (rest : ∀ value, (after value).Settled codec) : (plan >>= after).Settled codec := by
  intro ledger
  rcases settled ledger with ⟨value, view, ends⟩ | fails
  · by_cases reached : ∃ middle : MemoryLedger, middle.get? = view
    · obtain ⟨middle, rfl⟩ := reached
      have onward {later : MemoryLedger} (same : later.get? = middle.get?) :
          calm.rely middle later := fun key _ => congrFun same key
      rcases rest value middle with ⟨result, final, promise⟩ | promise
      · refine .inl ⟨result, final, Ensures.bind (fun _ _ _ _ => id) (ends.mono ?_ fun _ _ => id)⟩
        rintro _ later trace ⟨rfl, same⟩
        exact Flow.Ensures.later promise (onward same)
      · refine .inr (Ensures.bind (fun _ _ _ _ => id) (ends.mono ?_ fun _ _ _ => trivial))
        rintro _ later trace ⟨rfl, same⟩
        exact Flow.Ensures.later promise (onward same)
    · refine .inr (Ensures.bind (fun _ _ _ _ => id) (ends.mono ?_ fun _ _ => False.elim))
      exact fun _ later _ holds => absurd ⟨later, holds.2⟩ reached
  · refine .inr (Ensures.bind (fun _ _ _ _ => id) (fails.mono ?_ fun _ _ => id))
    exact fun _ _ _ => False.elim

theorem settled_pure (value : α) : (pure value : Plan α).Settled codec :=
  fun ledger => .inl ⟨value, ledger.get?, ensures_pure fun _ allowed =>
    ⟨rfl, view_of_calm allowed rfl⟩⟩

theorem settled_throw (error : RunError) : (throw error : Plan α).Settled codec :=
  fun _ => .inr (ensures_throw fun _ _ => trivial)

/-- A task asks one question after the other anyway. -/
theorem settled_ofJob (job : Job α) : (ofJob job).Settled codec := by
  intro ledger
  have asks (task : Task interface (Except RunError α)) :
      task.Asks (Within (fun _ => True) fun _ => True) := by
    induction task with
    | done value => trivial
    | ask request next ih =>
      refine ⟨?_, ih⟩
      cases request with
      | codec call => trivial
      | ledger op => cases op <;> simp [Within]
  have ends := ensures_ofJob (Job.ensures_alone codec (asks job.run) ledger)
  cases result : (job.alone codec ledger).1 with
  | ok value =>
    refine .inl ⟨value, (job.alone codec ledger).2.get?, ends.mono ?_ fun error _ failed => ?_⟩
    · rintro other later trace ⟨⟨same, alike⟩, -⟩
      exact ⟨Except.ok.inj (same.symm.trans result), funext fun key => alike key trivial⟩
    · cases failed.symm.trans result
  | error error =>
    refine .inr (ends.mono ?_ fun _ _ _ => trivial)
    rintro other later trace ⟨⟨same, -⟩, -⟩
    cases same.symm.trans result

theorem settled_checkCancelled (stage : Stage) : (checkCancelled stage).Settled codec :=
  fun ledger => .inl ⟨(), ledger.get?, ensures_checkCancelled
    (fun _ allowed => ⟨rfl, view_of_calm allowed rfl⟩) fun never => never.elim⟩

end Plan

/-! ### Runs -/

/-- A plan leaves alone what is not its own. -/
theorem sparing {plan : Plan α} {statement : α → MemoryLedger → List (Exchange interface) → Prop}
    {excuse : RunError → MemoryLedger → Prop}
    (ensures : plan.Ensures (exactly codec) (sharing (fun _ => True) own) statement excuse ledger) :
    plan.Ensures (exactly codec) (sharing (fun _ => True) own)
      (fun value later trace => statement value later trace ∧
        Alike (fun key => ¬ own key) ledger later) excuse ledger :=
  ensures.and_always (fun allowed before => before.trans fun key _ => allowed key trivial)
    (fun kept before => before.trans kept) (Alike.refl _ ledger)

/-- **Tasks that do not notice one another** come to the same in every order of their steps. -/
theorem settled_pool {stage : Stage} {chunks : List ChunkIndex} (distinct : chunks.Nodup)
    {job : ChunkIndex → Job Outcome}
    (asks : ∀ chunk ∈ chunks,
      (job chunk).Asks (Within (SeenBy stage chunk) (· ∈ stage.outputs chunk))) :
    Plan.Settled codec
      (ExceptT.mk (Flow.ofPool (Pool.start stage chunks fun chunk => (job chunk).task stage))) := by
  intro ledger
  have pool := Plan.ensures_pool stage (compatible_sharing stage chunks) distinct
    fun chunk member => Job.ensures_alone codec (asks chunk member) ledger
  have ends : Plan.Ensures _ calm _ _ _ ledger :=
    (sparing pool).within ⟨id, fun _ _ absent => absurd trivial absent⟩
  by_cases fine : ∀ chunk ∈ chunks, ∃ outcome, ((job chunk).alone codec ledger).1 = .ok outcome
  · have : Nonempty Outcome := ⟨.completed⟩
    choose! outcomes comes using fine
    let view (key : Key) : Option Artifact :=
      if FilledIn stage chunks key then ((job key.chunk).alone codec ledger).2.get? key
      else ledger.get? key
    refine .inl ⟨⟨stage, chunks.countP fun chunk => outcomes chunk = .completed,
      chunks.countP fun chunk => outcomes chunk = .skipped⟩, view, ends.mono ?_ ?_⟩
    · rintro summary later trace ⟨⟨found, traces, finished, -, rfl⟩, others⟩
      have same (chunk : ChunkIndex) (member : chunk ∈ chunks) : found chunk = outcomes chunk :=
        Except.ok.inj ((finished chunk member).1.1.symm.trans (comes chunk member))
      refine ⟨?_, funext fun key => ?_⟩
      · have counted (outcome : Outcome) : (chunks.countP fun chunk => found chunk = outcome) =
            chunks.countP fun chunk => outcomes chunk = outcome :=
          List.countP_congr fun chunk member => by rw [same chunk member]
        rw [counted, counted]
      · show later.get? key = if FilledIn stage chunks key then _ else _
        split
        · next filled => exact (finished key.chunk filled.1).1.2 key (.inl filled.2)
        · next outside => exact others key outside
    · rintro error later (⟨chunk, member, failed⟩ | never)
      · cases failed.symm.trans (comes chunk member)
      · exact never
  · refine .inr (ends.mono ?_ fun _ _ _ => trivial)
    rintro summary later trace ⟨⟨found, traces, finished, -, -⟩, -⟩
    exact fine fun chunk member => ⟨found chunk, (finished chunk member).1.1⟩

/-- **Runs are settled.** -/
theorem settled_plan (run : Run) : run.plan.Settled codec :=
  Composes.plan {
    value := Plan.settled_pure
    error := Plan.settled_throw
    bind := Plan.Settled.bind
    look := fun _ => Plan.settled_ofJob _
    token := Plan.settled_checkCancelled
    pool := fun stage =>
      settled_pool List.nodup_range fun chunk _ => within_barrierTask stage chunk
    seed := Plan.settled_ofJob _
    extend := fun _ _ => Plan.settled_ofJob _ }

/-! ### Two schedules -/

/-- **Two schedules of a settled plan** over the same ledger: if one ends well, the other ends with
the same value and leaves the same in every slot. -/
theorem Plan.Settled.same {plan : Plan α} (settled : plan.Settled codec)
    {world world' other other' : World MemoryLedger} {trace more : List (Exchange interface)}
    {value : α} {result : Except RunError α}
    (path : Flow.Path (exactly codec) calm.rely plan.run world trace (.done (.ok value)) world')
    (further : Flow.Path (exactly codec) calm.rely plan.run other more (.done result) other')
    (begun : other.state = world.state) (quiet : world.cancelled = false)
    (still : other.cancelled = false) :
    result = .ok value ∧ other'.state.get? = world'.state.get? := by
  have fires {world : World MemoryLedger} (quiet : world.cancelled = false) :
      world.cancelled = true → (exactly codec).interruptible := by simp [quiet]
  rcases settled world.state with ⟨common, view, promise⟩ | promise
  · obtain ⟨rfl, here⟩ := (promise world rfl (fires quiet) _ _ _ path).2 _ rfl
    have there := (promise other begun (fires still) _ _ _ further).2 _ rfl
    cases result with
    | error error => exact there.elim
    | ok result => exact ⟨congrArg _ there.1, there.2.trans here.symm⟩
  · exact ((promise world rfl (fires quiet) _ _ _ path).2 _ rfl).elim

end Transcode.Run
