/-
**What a ledger without deletions can hold.** Runs over any chunks, under any policy and schedule,
leave an artifact only where they leave what it was made from.

* `Reachable` are the ledgers that come about by runs alone, each stopped at any moment.
* `Reachable.ordered` — in such a ledger, whatever comes before a filled slot is filled.
* `Reachable.closed` — so the inputs of a stored output are stored, and the status view shows a
  finished stream exactly if it shows no work left.
-/
import Transcode.Proofs.Run.Advance
import Transcode.Proofs.Schedule.Drive

namespace Transcode

open Run

/-- **What runs can make of the empty ledger.** Each run may stop anywhere on its way, be
interrupted, and have its codec calls answered in any way. -/
inductive Reachable : MemoryLedger → Prop
  | empty : Reachable .empty
  | run {ledger : MemoryLedger} (before : Reachable ledger) (run : Run) (concurrency : Nat)
      {trace : List (Exchange interface)} {flow : Flow interface (Except RunError Result)}
      {world : World MemoryLedger}
      (path : Flow.Path (serving AnyAnswer) Eq run.plan.run (World.fresh concurrency ledger) trace
        flow world) :
      Reachable world.state

/-- Whatever comes before a filled slot is filled. -/
def MemoryLedger.Ordered (ledger : MemoryLedger) : Prop :=
  ∀ key other, ledger.Has key → Precedes other key → ledger.Has other

/-- A step that fills a slot only after those before it keeps the order. -/
theorem MemoryLedger.Ordered.of_guarantee {ledger later : MemoryLedger} {own reserved : Key → Prop}
    (ordered : ledger.Ordered) (kept : (filling Precedes own reserved).guarantee ledger later) :
    later.Ordered := by
  intro key other held earlier
  refine has_of_guarantee kept ?_
  rcases kept key with same | ⟨-, -, ready⟩
  · exact ordered key other ((MemoryLedger.has_congr same).mp held) earlier
  · exact ready other earlier

/-- **The order is kept at every moment of every run.** -/
theorem Run.ordered_of_path {run : Run} {world world' : World MemoryLedger}
    (ordered : world.state.Ordered) {trace : List (Exchange interface)}
    {flow : Flow interface (Except RunError Result)}
    (path : Flow.Path (serving AnyAnswer) Eq run.plan.run world trace flow world') :
    world'.state.Ordered := by
  have relied {state later : MemoryLedger}
      (allowed : (filling Precedes (fun _ => True) fun _ => True).rely state later)
      (ordered : state.Ordered) : later.Ordered := by
    have same (key : Key) : later.Has key ↔ state.Has key :=
      MemoryLedger.has_congr ((allowed key).2 trivial)
    exact fun key other held earlier =>
      (same other).mpr (ordered key other ((same key).mp held) earlier)
  refine Flow.Ensures.always (fills_plan run world.state) (fun _ => trivial) relied
    (fun kept ordered => ordered.of_guarantee kept) ordered (path.mono ?_)
  rintro state _ rfl
  exact (filling Precedes _ _).rely_refl state

theorem Reachable.ordered {ledger : MemoryLedger} (reachable : Reachable ledger) :
    ledger.Ordered := by
  induction reachable with
  | empty => exact fun key other held => by cases held
  | run before run concurrency path ih => exact ordered_of_path ih path

/-! ### Dependencies -/

/-- The inputs of a task come before its outputs. -/
theorem precedes_of_mem_inputs {stage : Stage} {chunk : ChunkIndex} {key other : Key}
    (written : key ∈ stage.outputs chunk) (read : other ∈ stage.inputs chunk) :
    Precedes other key := by
  cases stage <;> cases chunk <;> simp [Stage.inputs, Stage.outputs] at written read <;>
    rcases written with rfl | rfl <;> (try rcases read with rfl | rfl | rfl) <;>
    simp_all [Precedes, Chained, Key.lt_iff, Kind.stage, Kind.rank, Stage.isSerial, Stage.place,
      Stage.all, Stage.barriers]

/-- All that a run over the chunks up to the last fills comes before the merged stream of the
last. -/
theorem precedes_merged {last : ChunkIndex} {key : Key} (mine : key ∈ runKeys (last + 1)) :
    key = ⟨last, .merged⟩ ∨ Precedes key ⟨last, .merged⟩ := by
  obtain ⟨inside, present⟩ := mem_runKeys_iff.mp mine
  obtain ⟨chunk, kind⟩ := key
  rcases Nat.lt_succ_iff_lt_or_eq.mp inside with before | rfl
  · have behind := Nat.le_of_lt before
    cases kind <;> simp_all [Precedes, Chained, Key.lt_iff, Kind.stage, Kind.rank, Stage.isSerial,
      Stage.place, Stage.all, Stage.barriers, ChunkIndex]
  · cases kind <;> simp_all [Precedes, Chained, Key.lt_iff, Kind.stage, Kind.rank, Stage.isSerial,
      Stage.place, Stage.all, Stage.barriers, ChunkIndex]

/-! ### Status -/

theorem Progress.pending_eq_nil_iff {progress : Progress} {stage : Stage} :
    progress.pending stage = [] ↔
      ∀ chunk < progress.count, ∀ key ∈ stage.outputs chunk, key ∈ progress.existing := by
  simp [pending, isDone]

/-- No work is left exactly if all slots of a run are filled. -/
theorem Progress.nextStage?_eq_none_iff {progress : Progress} :
    progress.nextStage? = none ↔
      ∀ key ∈ runKeys progress.count, key ∈ progress.existing := by
  rw [nextStage?, List.find?_eq_none]
  constructor
  · intro idle key mine
    obtain ⟨stage, chunk, inside, written⟩ := mem_runKeys.mp mine
    have nothing : progress.pending stage = [] := by simpa using idle stage stage.mem_all
    exact pending_eq_nil_iff.mp nothing chunk inside key written
  · intro all stage _
    have nothing : progress.pending stage = [] := pending_eq_nil_iff.mpr
      fun chunk inside key written => all key (mem_runKeys.mpr ⟨stage, chunk, inside, written⟩)
    simpa using nothing

theorem Progress.finalOutput?_isSome_iff {existing : KeySet} {last : Nat} :
    (Progress.mk existing (last + 1)).finalOutput?.isSome ↔ ⟨last, .merged⟩ ∈ existing := by
  simp [finalOutput?]

/-- **Dependencies are closed, and the status is truthful.** In every ledger that runs can make of
the empty one, whatever the chunks, policies, schedules, answers of the codec, interruptions and
crashes: where an output of a task is stored, all that the task reads is stored; and over any number
of chunks the status view shows a finished stream exactly if it shows no stage with work left. -/
theorem Reachable.closed {ledger : MemoryLedger} (reachable : Reachable ledger) :
    (∀ (stage : Stage) (chunk : ChunkIndex), ∀ key ∈ stage.outputs chunk, ledger.Has key →
      ∀ other ∈ stage.inputs chunk, ledger.Has other) ∧
    ∀ count, 0 < count →
      ((Progress.mk ledger.keys count).finalOutput?.isSome ↔
        (Progress.mk ledger.keys count).nextStage? = none) := by
  constructor
  · exact fun stage chunk key written held other read =>
      reachable.ordered key other held (precedes_of_mem_inputs written read)
  · intro count positive
    obtain ⟨last, rfl⟩ := Nat.exists_eq_succ_of_ne_zero (Nat.ne_of_gt positive)
    rw [Progress.finalOutput?_isSome_iff, Progress.nextStage?_eq_none_iff, MemoryLedger.mem_keys]
    constructor
    · intro held key mine
      rw [MemoryLedger.mem_keys]
      rcases precedes_merged mine with rfl | earlier
      · exact held
      · exact reachable.ordered _ key held earlier
    · intro all
      have mine : (⟨last, .merged⟩ : Key) ∈ runKeys (last + 1) :=
        mem_runKeys_iff.mpr ⟨Nat.lt_succ_self last, by simp⟩
      exact MemoryLedger.mem_keys.mp (all _ mine)

/-- A codec that cannot rebase. -/
def Codec.brittle : Codec :=
  { Codec.verbatim with rebase := fun _ _ _ _ => .error (.stateMismatch .discontinuousSuffix) }

/-- The ledger after a run over two chunks whose chain breaks. -/
def brokenChain : MemoryLedger :=
  ((Run.plan ⟨"clip", twoChunks, .resume⟩).run.run (inMemory .brittle)
    (World.fresh 2 .empty)).2.state

/-- The run that breaks is part of a history. -/
theorem reachable_brokenChain : Reachable brokenChain := by
  have serves : (serving AnyAnswer).services (inMemory .brittle) :=
    serves_service fun _ => trivial
  obtain ⟨trace, path⟩ := Flow.path_run serves (Run.plan ⟨"clip", twoChunks, .resume⟩).run
    (World.fresh 2 .empty) (Nat.add_pos_left (Flow.free_fresh 2 _) _)
  exact .run .empty ⟨"clip", twoChunks, .resume⟩ 2 path

/-- A chain that breaks leaves a ledger that does not pass for a finished one. -/
theorem Reachable.closed_brokenChain :
    Reachable brokenChain ∧
      (brokenChain.Has ⟨1, .merged⟩ → brokenChain.Has ⟨1, .rebased⟩) ∧
      ((Progress.mk brokenChain.keys 2).finalOutput?.isSome ↔
        (Progress.mk brokenChain.keys 2).nextStage? = none) := by
  have closed := Reachable.closed reachable_brokenChain
  refine ⟨reachable_brokenChain, fun held => ?_, closed.2 2 Nat.two_pos⟩
  exact closed.1 .merge 1 ⟨1, .merged⟩ (by decide) held ⟨1, .rebased⟩ (by decide)

end Transcode
