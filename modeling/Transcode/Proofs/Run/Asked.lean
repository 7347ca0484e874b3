/-
**What a run can ask at all**, whatever it is answered.

* `Run.Permits` is what must be allowed to a part of a run: to look at some slots, to call the
  codec, and to fill slots of its own as the policy has it. A task needs no more than that of the
  slots in `Stage.inputs` and `Stage.outputs` (`Permits.barrierTask`, `Permits.chainStep`), and
  `Run.asks_plan` — a run needs no more than that of all slots.
* `Run.puts` counts how often a slot has been filled by a successful `put`; `Run.puts_of_log` — as
  long as nothing is overwritten, that is once for each slot that has come to be filled.
-/
import Transcode.Proofs.Ledger.Memory
import Transcode.Proofs.Run.Chain
import Transcode.Proofs.Schedule.Log

namespace Transcode.Run

variable {α β : Type} {allowed : Request → Prop}

/-! ### Jobs and plans -/

namespace Job

/-- Every request of the job is allowed. -/
abbrev Asks (allowed : Request → Prop) (job : Job α) : Prop :=
  Task.Asks allowed job.run

theorem asks_ofExcept (result : Except RunError α) : (ofExcept result).Asks allowed :=
  trivial

theorem Asks.bind {job : Job α} {after : α → Job β} (asks : job.Asks allowed)
    (rest : ∀ value, (after value).Asks allowed) : (job >>= after).Asks allowed := by
  refine Task.Asks.bind asks fun result => ?_
  cases result with
  | ok value => exact rest value
  | error error => trivial

theorem asks_interpret {op : Ledger.Op} (permitted : allowed (.ledger op))
    (read : op.Answer → Except RunError α) : (interpret op read).Asks allowed :=
  ⟨permitted, fun _ => trivial⟩

theorem asks_codec {call : Codec.Call} (permitted : allowed (.codec call))
    (blame : CodecError → RunError) : (codec call blame).Asks allowed :=
  ⟨permitted, fun _ => trivial⟩

theorem Asks.task {job : Job Outcome} (asks : job.Asks allowed) (stage : Stage) :
    Task.Asks allowed (job.task stage) :=
  Task.Asks.bind asks fun _ => trivial

end Job

namespace Plan

/-- Every request of the plan is allowed. -/
abbrev Asks (allowed : Request → Prop) (plan : Plan α) : Prop :=
  Flow.Asks allowed plan.run

theorem Asks.bind {plan : Plan α} {after : α → Plan β} (asks : plan.Asks allowed)
    (rest : ∀ value, (after value).Asks allowed) : (plan >>= after).Asks allowed := by
  refine Flow.Asks.bind asks fun result => ?_
  cases result with
  | ok value => exact rest value
  | error error => trivial

theorem asks_ofJob {job : Job α} (asks : job.Asks allowed) : (ofJob job).Asks allowed :=
  Flow.asks_ofTask asks

theorem asks_checkCancelled (stage : Stage) : (checkCancelled stage).Asks allowed :=
  fun _ => trivial

end Plan

/-! ### Parts of a run -/

/-- The slots on which the task of a stage depends, and those that it fills, are among the given
ones. -/
structure Covers (seen own : Key → Prop) (stage : Stage) (chunk : ChunkIndex) : Prop where
  reads : ∀ key ∈ stage.inputs chunk, seen key
  looks : ∀ key ∈ stage.outputs chunk, seen key
  fills : ∀ key ∈ stage.outputs chunk, own key

/-- **What a part of a run must be allowed to ask**: to look at the slots it may see, to call the
codec, and to fill slots of its own as the policy of the run has it. -/
structure Permits (run : Run) (seen own : Key → Prop) (allowed : Request → Prop) : Prop where
  contains : ∀ key, seen key → allowed (.ledger (.contains key))
  get : ∀ key, seen key → allowed (.ledger (.get key))
  codec : ∀ call, allowed (.codec call)
  overwrite : run.policy = .overwrite → ∀ key, own key → ∀ artifact,
    allowed (.ledger (.overwrite key artifact))
  put : run.policy ≠ .overwrite → ∀ key, own key → ∀ artifact, allowed (.ledger (.put key artifact))

namespace Permits

variable {run : Run} {seen own : Key → Prop} {chunk previous : ChunkIndex}
  (permits : run.Permits seen own allowed)

include permits

theorem bitstream {kind : Kind} (sees : seen ⟨chunk, kind⟩) : (bitstream chunk kind).Asks allowed :=
  (Job.asks_interpret (permits.get _ sees) _).bind fun _ => Job.asks_ofExcept _

theorem state {kind : Kind} (sees : seen ⟨chunk, kind⟩) : (state chunk kind).Asks allowed :=
  (Job.asks_interpret (permits.get _ sees) _).bind fun _ => Job.asks_ofExcept _

theorem store {key : Key} (mine : own key) (artifact : Artifact) :
    (run.store key artifact).Asks allowed := by
  unfold Run.store
  split
  · next policy => exact Job.asks_interpret (permits.overwrite policy _ mine _) _
  · next policy => exact Job.asks_interpret (permits.put (by simp [policy]) _ mine _) _
  · next policy => exact Job.asks_interpret (permits.put (by simp [policy]) _ mine _) _

/-- A task that looks for its outputs first. -/
theorem unlessStored {keys : List Key} {stored made : Job α} (sees : ∀ key ∈ keys, seen key)
    (takes : stored.Asks allowed) (makes : made.Asks allowed) :
    (run.canSkip keys >>= fun skips => if skips then stored else made).Asks allowed := by
  have looks : (run.canSkip keys).Asks allowed := by
    unfold canSkip
    split
    · induction keys with
      | nil => trivial
      | cons key rest ih =>
        obtain ⟨here, others⟩ := List.forall_mem_cons.mp sees
        refine (Job.asks_interpret (permits.contains key here) _).bind fun found => ?_
        cases found with
        | true => exact ih others
        | false => trivial
    · trivial
  refine looks.bind fun skips => ?_
  cases skips with
  | true => exact takes
  | false => exact makes

theorem encodeLineage {lineage : Lineage} (proper : lineage = .v0 ∨ lineage = .v1)
    (covers : Covers seen own lineage.stage chunk) :
    (run.encodeLineage lineage chunk).Asks allowed := by
  have filled : (⟨chunk, lineage.stream⟩ : Key) ∈ lineage.stage.outputs chunk ∧
      (⟨chunk, lineage.state⟩ : Key) ∈ lineage.stage.outputs chunk := by
    rcases proper with rfl | rfl <;> simp [Lineage.v0, Lineage.v1, Stage.outputs]
  have stores (encoded : Encoded) : (run.storeLineage lineage chunk encoded).Asks allowed :=
    (permits.store (covers.fills _ filled.1) _).bind fun _ =>
      permits.store (covers.fills _ filled.2) _
  cases chunk with
  | zero =>
    have read : (⟨0, .baseline⟩ : Key) ∈ lineage.stage.inputs 0 ∧
        (⟨0, .decodeState⟩ : Key) ∈ lineage.stage.inputs 0 := by
      rcases proper with rfl | rfl <;> simp [Lineage.v0, Lineage.v1, Stage.inputs]
    exact (permits.bitstream (covers.reads _ read.1)).bind fun _ =>
      (permits.state (covers.reads _ read.2)).bind fun _ => stores _
  | succ previous =>
    have read : (⟨previous, lineage.predecessor⟩ : Key) ∈ lineage.stage.inputs (previous + 1) ∧
        (⟨previous + 1, .baseline⟩ : Key) ∈ lineage.stage.inputs (previous + 1) := by
      rcases proper with rfl | rfl <;> simp [Lineage.v0, Lineage.v1, Stage.inputs]
    exact (permits.state (covers.reads _ read.1)).bind fun _ =>
      (permits.bitstream (covers.reads _ read.2)).bind fun _ => (Job.asks_ofExcept _).bind fun _ =>
        (Job.asks_codec (permits.codec _) _).bind fun _ => stores _

theorem compute {stage : Stage} (covers : Covers seen own stage chunk) :
    (run.compute stage chunk).Asks allowed := by
  cases stage with
  | baselineEncode =>
    have filled := covers.fills ⟨chunk, .baseline⟩ (by simp [Stage.outputs])
    exact (Job.asks_ofExcept _).bind fun _ => (Job.asks_codec (permits.codec _) _).bind fun _ =>
      permits.store filled _
  | stateExtraction =>
    have read := covers.reads ⟨chunk, .baseline⟩ (by simp [Stage.inputs])
    have filled := covers.fills ⟨chunk, .decodeState⟩ (by simp [Stage.outputs])
    exact (permits.bitstream read).bind fun _ => (Job.asks_codec (permits.codec _) _).bind fun _ =>
      permits.store filled _
  | encodeGivenStateV0 => exact permits.encodeLineage (.inl rfl) covers
  | encodeGivenStateV1 => exact permits.encodeLineage (.inr rfl) covers
  | rebase => trivial
  | merge => trivial

/-- **The task of a barrier stage** for one chunk depends on what it is said to depend on. -/
theorem barrierTask {stage : Stage} (covers : Covers seen own stage chunk) :
    (run.barrierTask stage chunk).Asks allowed :=
  permits.unlessStored covers.looks trivial ((permits.compute covers).bind fun _ => trivial)

/-- **The chain over the first chunk**, likewise. -/
theorem seed (rebases : Covers seen own .rebase 0) (merges : Covers seen own .merge 0) :
    run.seed.Asks allowed := by
  have state : (⟨0, .rebasedState⟩ : Key) ∈ Stage.rebase.outputs 0 := List.mem_singleton_self _
  have stream : (⟨0, .merged⟩ : Key) ∈ Stage.merge.outputs 0 := List.mem_singleton_self _
  have rebase : run.takeOverState.Asks allowed :=
    permits.unlessStored rebases.looks
      ((permits.state (rebases.looks _ state)).bind fun _ => trivial)
      ((permits.state (rebases.reads _ (List.mem_singleton_self _))).bind fun _ =>
        (permits.store (rebases.fills _ state) _).bind fun _ => trivial)
  have merge : run.takeOverStream.Asks allowed :=
    permits.unlessStored merges.looks
      ((permits.bitstream (merges.looks _ stream)).bind fun _ => trivial)
      ((permits.bitstream (merges.reads _ (List.mem_singleton_self _))).bind fun _ =>
        (permits.store (merges.fills _ stream) _).bind fun _ => trivial)
  exact rebase.bind fun _ => merge.bind fun _ => trivial

/-- **The chain over one more chunk**, likewise. What it goes on from was read before. -/
theorem extend (rebases : Covers seen own .rebase (previous + 1))
    (merges : Covers seen own .merge (previous + 1)) (link : Link) :
    (run.extend previous link).Asks allowed := by
  have rebased : (⟨previous + 1, .rebased⟩ : Key) ∈ Stage.rebase.outputs (previous + 1) ∧
      (⟨previous + 1, .rebasedState⟩ : Key) ∈ Stage.rebase.outputs (previous + 1) := by
    simp [Stage.outputs]
  have read : (⟨previous, .encodeV0State⟩ : Key) ∈ Stage.rebase.inputs (previous + 1) ∧
      (⟨previous + 1, .encodeV1⟩ : Key) ∈ Stage.rebase.inputs (previous + 1) := by
    simp [Stage.inputs]
  have stream : (⟨previous + 1, .merged⟩ : Key) ∈ Stage.merge.outputs (previous + 1) :=
    List.mem_singleton_self _
  have rebase : (run.rebaseOnto previous link.state).Asks allowed :=
    permits.unlessStored rebases.looks
      ((permits.bitstream (rebases.looks _ rebased.1)).bind fun _ =>
        (permits.state (rebases.looks _ rebased.2)).bind fun _ => trivial)
      ((permits.state (rebases.reads _ read.1)).bind fun _ =>
        (permits.bitstream (rebases.reads _ read.2)).bind fun _ =>
        (Job.asks_ofExcept _).bind fun _ => (Job.asks_codec (permits.codec _) _).bind fun _ =>
        (permits.store (rebases.fills _ rebased.1) _).bind fun _ =>
        (permits.store (rebases.fills _ rebased.2) _).bind fun _ => trivial)
  have merge (rebased : Bitstream) :
      (run.mergeOnto (previous + 1) link.output rebased).Asks allowed :=
    permits.unlessStored merges.looks
      ((permits.bitstream (merges.looks _ stream)).bind fun _ => trivial)
      ((Job.asks_codec (permits.codec _) _).bind fun _ =>
        (permits.store (merges.fills _ stream) _).bind fun _ => trivial)
  exact rebase.bind fun encoded => (merge encoded.1.stream).bind fun _ => trivial

/-- **The chain over one chunk on its own** depends on what both of its stages depend on. -/
theorem chainStep (rebases : Covers seen own .rebase chunk) (merges : Covers seen own .merge chunk) :
    (run.chainStep chunk).Asks allowed := by
  cases chunk with
  | zero => exact permits.seed rebases merges
  | succ previous =>
    have state := rebases.reads ⟨previous, .rebasedState⟩ (by simp [Stage.inputs])
    have output := merges.reads ⟨previous, .merged⟩ (by simp [Stage.inputs])
    exact (permits.state state).bind fun _ => (permits.bitstream output).bind fun _ =>
      permits.extend rebases merges _

end Permits

/-- All slots are among all slots. -/
theorem covers_all (stage : Stage) (chunk : ChunkIndex) :
    Covers (fun _ => True) (fun _ => True) stage chunk :=
  ⟨fun _ _ => trivial, fun _ _ => trivial, fun _ _ => trivial⟩

/-- What a run may ask with all slots at its disposal, each of its parts may ask. -/
theorem Permits.composes {run : Run} (permits : run.Permits (fun _ => True) (fun _ => True) allowed)
    (keys : allowed (.ledger .keys)) : run.Composes (Plan.Asks allowed) where
  value _ := trivial
  error _ := trivial
  bind asks rest := asks.bind rest
  look _ := Plan.asks_ofJob ((Job.asks_interpret keys _).bind fun _ => trivial)
  token := Plan.asks_checkCancelled
  pool stage := by
    refine ⟨⟨fun chunk _ => ?_, by simp [Pool.start]⟩, fun _ => trivial⟩
    exact (permits.barrierTask (covers_all stage chunk)).task stage
  seed := Plan.asks_ofJob (permits.seed (covers_all .rebase 0) (covers_all .merge 0))
  extend previous link := Plan.asks_ofJob
    (permits.extend (covers_all .rebase (previous + 1)) (covers_all .merge (previous + 1)) link)

/-- **A run asks for nothing but what it must be allowed to ask.** -/
theorem asks_plan {run : Run} (permits : run.Permits (fun _ => True) (fun _ => True) allowed)
    (keys : allowed (.ledger .keys)) : run.plan.Asks allowed :=
  (permits.composes keys).plan

/-! ### Slots filled once -/

/-- The request filled an empty slot. -/
def fillsEmpty (key : Key) : Exchange interface → Bool
  | ⟨.ledger (.put slot _), .ok _⟩ => slot = key
  | _ => false

/-- How often the slot was filled by a successful `put`. -/
def puts (trace : List (Exchange interface)) (key : Key) : Nat :=
  trace.countP (fillsEmpty key)

/-- The request replaces what a slot holds. -/
def Request.Overwrites : Request → Prop
  | .ledger (.overwrite _ _) => True
  | _ => False

/-- A run that does not overwrite, never asks for that. -/
theorem permits_notOverwrites {run : Run} (adding : run.policy ≠ .overwrite) :
    run.Permits (fun _ => True) (fun _ => True) fun request => ¬ request.Overwrites where
  contains _ _ := id
  get _ _ := id
  codec _ := id
  overwrite policy := absurd policy adding
  put _ _ _ _ := id

/-- A request fills a slot exactly if it finds the slot empty and leaves it filled. -/
theorem fillsEmpty_of_reply {answers : (call : Codec.Call) → call.Answer → Prop}
    {service : Service interface MemoryLedger} (serves : Serves answers service)
    {request : Request} (kept : ¬ request.Overwrites) (ledger : MemoryLedger) (key : Key) :
    (fillsEmpty key ⟨request, (service.reply request ledger).answer⟩).toNat +
        (ledger.get? key).isSome.toNat =
      ((service.reply request ledger).state.get? key).isSome.toNat := by
  cases request with
  | codec call =>
    rw [serves.quiet]
    exact Nat.zero_add _
  | ledger op =>
    rw [serves.ledger, serves.change]
    cases op with
    | contains slot => exact Nat.zero_add _
    | keys => exact Nat.zero_add _
    | get slot => exact Nat.zero_add _
    | overwrite slot artifact => exact absurd trivial kept
    | put slot artifact =>
      cases fit : artifact.fits slot with
      | false =>
        rw [MemoryLedger.answer_put_of_misfit fit]
        exact Nat.zero_add _
      | true =>
        cases held : ledger.get? slot with
        | some other =>
          rw [MemoryLedger.answer_put_of_some fit held]
          exact Nat.zero_add _
        | none =>
          rw [MemoryLedger.answer_put_of_none fit held]
          by_cases same : slot = key
          · subst same
            rw [held, MemoryLedger.get?_insert_self]
            simp [fillsEmpty]
          · rw [MemoryLedger.get?_insert_of_ne ledger (Ne.symm same)]
            simp [fillsEmpty, same]

/-- **As long as nothing is overwritten, every slot is filled at most once**: exactly once if it has
come to be filled, and never if it was filled before. -/
theorem puts_of_log {answers : (call : Codec.Call) → call.Answer → Prop}
    {ledger later : MemoryLedger} {trace : List (Exchange interface)}
    (log : Log (Serves answers) ledger trace later)
    (kept : ∀ exchange ∈ trace, ¬ Request.Overwrites exchange.1) (key : Key) :
    puts trace key + (ledger.get? key).isSome.toNat = (later.get? key).isSome.toNat := by
  induction log with
  | nothing => exact Nat.zero_add _
  | @ask trace middle _ service serves request ih =>
    obtain ⟨before, now⟩ := List.forall_mem_append.mp kept
    have fine : ¬ request.Overwrites := now _ (List.mem_singleton_self _)
    have last := fillsEmpty_of_reply serves fine middle key
    have more : puts (trace ++ [⟨request, (service.reply request middle).answer⟩]) key =
        puts trace key +
          (fillsEmpty key ⟨request, (service.reply request middle).answer⟩).toNat := by
      rw [puts, List.countP_append, List.countP_singleton, puts]
      cases fillsEmpty key ⟨request, (service.reply request middle).answer⟩ <;> rfl
    have earlier := ih before
    omega

end Transcode.Run
