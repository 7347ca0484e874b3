/-
**Tasks depend on what they are said to depend on.** `Stage.inputs` and `Stage.outputs` are a table;
the tasks read and fill the ledger on their own account. Over two ledgers that hold the same in the
slots of the table a task does the same, and it leaves alone all slots but its outputs.

* `Run.Concurs` compares a task in two worlds, request by request. It holds of every task within a
  footprint in which the two ledgers are alike (`concurs_of_asks`).
* `Run.tasks_depend_on_inputs` — so it holds of the tasks of the stages, and of the chain over one
  chunk.
-/
import Transcode.Proofs.Run.Footprint
import Transcode.Proofs.Run.SingleSteps

namespace Transcode

/-- What a task asks that has the service to itself, in order, with the answers. -/
def Task.trace {I : Interface} {σ α : Type} (service : Service I σ) :
    Task I α → World σ → List (Exchange I)
  | .done _, _ => []
  | .ask request next, world =>
    let (answer, later) := world.serve service request
    ⟨request, answer⟩ :: trace service (next answer) later

namespace Run

variable {τ α : Type} {codec : (call : Codec.Call) → τ → call.Answer × τ} {seen own : Key → Prop}
  {world other : World (MemoryLedger × τ)}

/-! ### A task in two worlds -/

/-- **The task does the same in both worlds.** It asks the same and is answered the same, codec
calls with their operands and stored artifacts among that; it comes to the same value, and the codec
to the same memory; it leaves the same in its own slots, and all others as they were. -/
structure Concurs (codec : (call : Codec.Call) → τ → call.Answer × τ) (own : Key → Prop)
    (task : Task interface α) (world other : World (MemoryLedger × τ)) : Prop where
  value : (task.run (withMemory codec) other).1 = (task.run (withMemory codec) world).1
  requests : task.trace (withMemory codec) other = task.trace (withMemory codec) world
  memory : (task.run (withMemory codec) other).2.state.2 =
    (task.run (withMemory codec) world).2.state.2
  stored : Alike own (task.run (withMemory codec) world).2.state.1
    (task.run (withMemory codec) other).2.state.1
  leaves : Alike (fun key => ¬ own key) world.state.1
    (task.run (withMemory codec) world).2.state.1
  leaves_other : Alike (fun key => ¬ own key) other.state.1
    (task.run (withMemory codec) other).2.state.1

/-- The two worlds look the same from the slots of the set: the ledgers are alike there, and the
codec has the same memory. -/
structure Meets (seen : Key → Prop) (world other : World (MemoryLedger × τ)) : Prop where
  alike : Alike seen world.state.1 other.state.1
  memory : other.state.2 = world.state.2

variable (codec) in
/-- **A request within the footprint** is answered the same, after which the worlds still look the
same. -/
theorem Meets.serve {request : Request} (meets : Meets seen world other)
    (within : Within seen own request) :
    (other.serve (withMemory codec) request).1 = (world.serve (withMemory codec) request).1 ∧
      Meets seen (world.serve (withMemory codec) request).2
        (other.serve (withMemory codec) request).2 ∧
      Alike (fun key => ¬ own key) other.state.1
        (other.serve (withMemory codec) request).2.state.1 := by
  cases request with
  | codec call =>
    refine ⟨?_, ⟨meets.alike, ?_⟩, Alike.refl _ _⟩
    · show (codec call other.state.2).1 = (codec call world.state.2).1
      rw [meets.memory]
    · show (codec call other.state.2).2 = (codec call world.state.2).2
      rw [meets.memory]
  | ledger op =>
    obtain ⟨same, after, kept⟩ := answer_alike within meets.alike
    exact ⟨same, ⟨after, meets.memory⟩, kept⟩

/-- **A task within its footprint** does the same in two worlds that look the same from there. -/
theorem concurs_of_asks (visible : ∀ key, own key → seen key) {task : Task interface α}
    (asks : task.Asks (Within seen own)) (meets : Meets seen world other) :
    Concurs codec own task world other := by
  induction task generalizing world other with
  | done value =>
    exact ⟨rfl, rfl, meets.memory, fun key mine => meets.alike key (visible key mine),
      Alike.refl _ _, Alike.refl _ _⟩
  | ask request next ih =>
    obtain ⟨same, after, kept_other⟩ := meets.serve codec asks.1
    have itself : Meets seen world world := ⟨Alike.refl _ _, rfl⟩
    obtain ⟨-, -, kept⟩ := itself.serve codec asks.1
    have rest := ih _ (asks.2 (world.serve (withMemory codec) request).1) after
    -- In the other world the task goes on with the same answer.
    have onward : (Task.ask request next).run (withMemory codec) other =
        (next (world.serve (withMemory codec) request).1).run (withMemory codec)
          (other.serve (withMemory codec) request).2 := by
      rw [← same]
      rfl
    have recorded : (Task.ask request next).trace (withMemory codec) other =
        ⟨request, (world.serve (withMemory codec) request).1⟩ ::
          (next (world.serve (withMemory codec) request).1).trace (withMemory codec)
            (other.serve (withMemory codec) request).2 := by
      rw [← same]
      rfl
    constructor
    · exact (congrArg Prod.fst onward).trans rest.value
    · exact recorded.trans (congrArg _ rest.requests)
    · exact (congrArg (·.2.state.2) onward).trans rest.memory
    · rw [onward]
      exact rest.stored
    · exact kept.trans rest.leaves
    · rw [onward]
      exact kept_other.trans rest.leaves_other

/-! ### Tasks and steps of a run -/

/-- **The slots of the table are all that matters.** Whatever the codec answers or refuses, and
whatever the policy: over two ledgers that hold the same in the inputs and the outputs of a stage
for a chunk, its task makes the same requests with the same answers and comes to the same outcome or
error; it stores the same, and it leaves all slots but its outputs as they are. The chain over one
chunk does so likewise, over two ledgers that hold the same in the inputs and the outputs of its two
stages. -/
theorem tasks_depend_on_inputs (run : Run) (chunk : ChunkIndex)
    (codec : (call : Codec.Call) → τ → call.Answer × τ) (world other : World (MemoryLedger × τ))
    (memory : other.state.2 = world.state.2) :
    (∀ stage : Stage,
      (∀ key ∈ stage.inputs chunk ++ stage.outputs chunk,
        other.state.1.get? key = world.state.1.get? key) →
      Concurs codec (· ∈ stage.outputs chunk) (run.barrierTask stage chunk).run world other) ∧
    ((∀ key ∈ (Stage.rebase.inputs chunk ++ Stage.merge.inputs chunk) ++
        (Stage.rebase.outputs chunk ++ Stage.merge.outputs chunk),
        other.state.1.get? key = world.state.1.get? key) →
      Concurs codec (· ∈ Stage.rebase.outputs chunk ++ Stage.merge.outputs chunk)
        (run.chainStep chunk).run world other) := by
  refine ⟨fun stage alike => ?_, fun alike => ?_⟩
  · have visible (key : Key) (mine : key ∈ stage.outputs chunk) :
        key ∈ stage.inputs chunk ++ stage.outputs chunk := List.mem_append_right _ mine
    refine concurs_of_asks visible ?_ ⟨alike, memory⟩
    exact (permits_within run visible).barrierTask
      ⟨fun _ => List.mem_append_left _, fun _ => List.mem_append_right _, fun _ => id⟩
  · have visible (key : Key) (mine : key ∈ Stage.rebase.outputs chunk ++ Stage.merge.outputs chunk) :
        key ∈ (Stage.rebase.inputs chunk ++ Stage.merge.inputs chunk) ++
          (Stage.rebase.outputs chunk ++ Stage.merge.outputs chunk) := List.mem_append_right _ mine
    refine concurs_of_asks visible ?_ ⟨alike, memory⟩
    refine (permits_within run visible).chainStep ⟨?_, ?_, ?_⟩ ⟨?_, ?_, ?_⟩ <;>
      · intro key member
        simp [member]

/-- The first of two chunks has been through the chain. -/
def seeded : MemoryLedger :=
  (readyForChain.insert ⟨0, .rebasedState⟩ (.state ⟨[1]⟩)).insert ⟨0, .merged⟩ (.bitstream ⟨[1]⟩)

/-- Beside what the chain over the second chunk looks at, another artifact. -/
def cluttered : MemoryLedger :=
  seeded.insert ⟨1, .baseline⟩ (.bitstream ⟨[5]⟩)

/-- The chain over the second chunk succeeds in the one ledger, and thus in the other, where the
artifact that is none of its business remains. The decoder state of the first chunk cannot be had
in either, for want of its baseline. -/
theorem tasks_depend_on_inputs_seeded :
    let run : Run := ⟨"clip", twoChunks, .overwrite⟩
    let world : World (MemoryLedger × Nat) := ⟨1, false, (seeded, 0)⟩
    let other : World (MemoryLedger × Nat) := ⟨1, false, (cluttered, 0)⟩
    Concurs counting (· ∈ Stage.rebase.outputs 1 ++ Stage.merge.outputs 1)
        (run.chainStep 1).run world other ∧
      ((run.chainStep 1).run.run (withMemory counting) other).1.isOk = true ∧
      ((run.chainStep 1).run.run (withMemory counting) other).2.state.1.get? ⟨1, .baseline⟩ =
        some (.bitstream ⟨[5]⟩) ∧
      ((run.barrierTask .stateExtraction 0).run.run (withMemory counting) other).1 =
        .error (.notFound ⟨0, .baseline⟩) := by
  intro run world other
  obtain ⟨-, chain⟩ := tasks_depend_on_inputs run 1 counting world other rfl
  obtain ⟨tasks, -⟩ := tasks_depend_on_inputs run 0 counting world other rfl
  have concurs := chain (by decide)
  refine ⟨concurs, ?_, ?_, ?_⟩
  · rw [concurs.value]
    rfl
  · exact concurs.leaves_other _ (by decide)
  · rw [(tasks .stateExtraction (by decide)).value]
    rfl

end Run

end Transcode
