/-
**The chain step by step.** Each chunk may go through the chain on its own, as it then reads back
from the ledger what the chain as a whole hands on in memory. Both do the same.

* `Run.withMemory` answers from the ledger in memory and a codec that keeps a memory of its own, so
  that any of its calls may fail, another one each time.
* `Link.StoredAt` — the ledger holds what the chain hands on after a chunk. Every step leaves it so
  (`reached_extend`), though a resumed run keeps what it finds in its slots.
* `Run.singleSteps_eq_chain` — so the steps in a row are the chain; and a step that comes too early
  does nothing.
-/
import Transcode.Proofs.Run.Prefix

namespace Transcode

namespace Run

variable {τ α β : Type}

/-! ### Taking jobs and plans to their end -/

/-- The ledger in memory, and a codec that keeps a memory of its own and fires no token. -/
def withMemory (codec : (call : Codec.Call) → τ → call.Answer × τ) :
    Service interface (MemoryLedger × τ) :=
  service (fun op state => ((state.1.answer op).1, (state.1.answer op).2, state.2))
    fun call state => ((codec call state.2).1, (state.1, (codec call state.2).2), false)

variable {codec : (call : Codec.Call) → τ → call.Answer × τ}
  {world later : World (MemoryLedger × τ)}

variable (codec) in
/-- **What a task ensures of its ledger**, it also ensures of a ledger beside a codec with a
memory. -/
theorem ensures_withMemory {conduct : Conduct MemoryLedger} {statement : α → MemoryLedger → Prop}
    {task : Task interface α}
    (ensures : task.Ensures (Serves AnyAnswer) conduct statement world.state.1) :
    statement (task.run (withMemory codec) world).1 (task.run (withMemory codec) world).2.state.1 ∧
      (task.run (withMemory codec) world).2.cancelled = world.cancelled := by
  induction task generalizing world with
  | done value => exact ⟨ensures _ (conduct.rely_refl _), rfl⟩
  | ask request next ih =>
    -- The codec as it answers with the memory of this moment.
    have serves : Serves AnyAnswer (service (fun op ledger => ledger.answer op) fun call ledger =>
        ((codec call world.state.2).1, ledger, false)) := serves_service fun _ => trivial
    obtain ⟨-, rest⟩ := ensures _ (conduct.rely_refl _) _ serves
    cases request with
    | ledger op =>
      obtain ⟨holds, same⟩ := @ih _ (world.serve (withMemory codec) (.ledger op)).2 rest
      exact ⟨holds, same.trans (Bool.or_false _)⟩
    | codec call =>
      obtain ⟨holds, same⟩ := @ih _ (world.serve (withMemory codec) (.codec call)).2 rest
      exact ⟨holds, same.trans (Bool.or_false _)⟩

section Sequence

variable {σ : Type} {service : Service interface σ} {before after : World σ}

/-- A job that succeeds, and what follows it. -/
theorem Job.run_bind_of_ok {job : Job α} {next : α → Job β} {value : α}
    (ran : job.run.run service before = (.ok value, after)) :
    (job >>= next).run.run service before = (next value).run.run service after := by
  refine (Task.run_bind service job.run (ExceptT.bindCont next) before).trans ?_
  rw [ran]
  rfl

/-- A job that fails, whatever was to follow. -/
theorem Job.run_bind_of_error {job : Job α} {next : α → Job β} {error : RunError}
    (ran : job.run.run service before = (.error error, after)) :
    (job >>= next).run.run service before = (.error error, after) := by
  refine (Task.run_bind service job.run (ExceptT.bindCont next) before).trans ?_
  rw [ran]
  rfl

/-- A plan that succeeds, and what follows it. -/
theorem Plan.run_bind_of_ok {plan : Plan α} {next : α → Plan β} {value : α}
    (ran : plan.run.run service before = (.ok value, after)) :
    (plan >>= next).run.run service before = (next value).run.run service after := by
  refine (Flow.run_bind service plan.run (ExceptT.bindCont next) before).trans ?_
  rw [ran]
  rfl

/-- A plan that fails, whatever was to follow. -/
theorem Plan.run_bind_of_error {plan : Plan α} {next : α → Plan β} {error : RunError}
    (ran : plan.run.run service before = (.error error, after)) :
    (plan >>= next).run.run service before = (.error error, after) := by
  refine (Flow.run_bind service plan.run (ExceptT.bindCont next) before).trans ?_
  rw [ran]
  rfl

theorem Plan.run_ofJob (job : Job α) :
    (Plan.ofJob job).run.run service before = job.run.run service before :=
  Flow.run_ofTask service job.run before

theorem Plan.run_checkCancelled (uncancelled : before.cancelled = false) (stage : Stage) :
    (Plan.checkCancelled stage).run.run service before = (.ok (), before) := by
  show ((if before.cancelled then Except.error (RunError.cancelled stage) else .ok ()),
    before) = _
  rw [uncancelled]
  rfl

end Sequence

/-! ### Reading the ledger -/

/-- A ledger operation that changes nothing. -/
theorem run_look {op : Ledger.Op} (read : op.Answer → Except RunError α)
    (looks : (world.state.1.answer op).2 = world.state.1) :
    (Job.interpret op read).run.run (withMemory codec) world =
      (read (world.state.1.answer op).1, world) := by
  refine Prod.ext rfl ?_
  show World.mk world.free (world.cancelled || false)
    ((world.state.1.answer op).2, world.state.2) = world
  rw [looks, Bool.or_false]

theorem run_get_of_some {key : Key} {artifact : Artifact}
    (held : world.state.1.get? key = some artifact) :
    (Job.ledger (.get key)).run.run (withMemory codec) world = (.ok artifact, world) := by
  refine (run_look _ rfl).trans ?_
  rw [MemoryLedger.answer_get_of_some held]
  rfl

theorem run_get_of_empty {key : Key} (empty : ¬ world.state.1.Has key) :
    (Job.ledger (.get key)).run.run (withMemory codec) world = (.error (.notFound key), world) := by
  have absent : world.state.1.get? key = none := Option.not_isSome_iff_eq_none.mp empty
  refine (run_look _ rfl).trans ?_
  simp [MemoryLedger.answer, MemoryLedger.get, absent, Except.mapError, RunError.ofLedger]

theorem run_state_of_some {chunk : ChunkIndex} {kind : Kind} {handle : StateHandle}
    (held : world.state.1.get? ⟨chunk, kind⟩ = some (.state handle)) :
    (state chunk kind).run.run (withMemory codec) world = (.ok handle, world) :=
  Job.run_bind_of_ok (run_get_of_some held)

theorem run_bitstream_of_some {chunk : ChunkIndex} {kind : Kind} {stream : Bitstream}
    (held : world.state.1.get? ⟨chunk, kind⟩ = some (.bitstream stream)) :
    (bitstream chunk kind).run.run (withMemory codec) world = (.ok stream, world) :=
  Job.run_bind_of_ok (run_get_of_some held)

/-- A plan that first looks for what it needs, and finds it. -/
theorem run_requiring {needed : KeySet} (held : ∀ key ∈ needed, world.state.1.Has key)
    (plan : Plan α) :
    (Plan.requiring needed plan).run.run (withMemory codec) world =
      plan.run.run (withMemory codec) world := by
  have listed : (Job.ledger .keys).run.run (withMemory codec) world =
      (.ok world.state.1.keys, world) := run_look _ rfl
  have looks : (Plan.ofJob (firstMissing needed)).run.run (withMemory codec) world =
      (.ok none, world) := by
    rw [Plan.run_ofJob, firstMissing, Job.run_bind_of_ok listed,
      MemoryLedger.firstMissing_keys_eq_none.mpr held]
    rfl
  rw [Plan.requiring_eq, Plan.run_bind_of_ok looks]
  rfl

/-! ### What is handed on -/

/-- The ledger holds what the chain hands on after a chunk. -/
structure Link.StoredAt (link : Link) (chunk : ChunkIndex) (ledger : MemoryLedger) : Prop where
  state : ledger.get? ⟨chunk, .rebasedState⟩ = some (.state link.state)
  output : ledger.get? ⟨chunk, .merged⟩ = some (.bitstream link.output)

variable {run : Run} {origin : MemoryLedger} {previous : ChunkIndex} {link : Link}
  {step : ChainStep}

/-- What the chain has come to after some chunks, from the ledger that it began with. -/
structure Reached (origin : MemoryLedger) (chunk : ChunkIndex) (link : Link)
    (world : World (MemoryLedger × τ)) : Prop where
  stored : link.StoredAt chunk world.state.1
  gains : Gains (fun _ => True) (Behind .rebase (chunk + 1)) origin world.state.1
  uncancelled : world.cancelled = false

/-- Nothing comes before the slots of a chain that is on its own. -/
theorem backed_false (count : Nat) (ledger : MemoryLedger) :
    Backed (fun _ _ => False) count ledger :=
  fun _ _ _ _ => False.elim

theorem reached_seed (nonempty : 0 < run.count) (uncancelled : world.cancelled = false)
    (ran : run.seed.run.run (withMemory codec) world = (.ok step, later)) :
    Reached world.state.1 0 step.link later := by
  have start : Gains (fun _ => True) (Behind .rebase 0) world.state.1 world.state.1 :=
    (Gains.nothing _ _).congr fun key => iff_false_intro (not_behind_start key)
  obtain ⟨verdict, same⟩ := ensures_withMemory codec
    (fills_seed (backed_false run.count _) nonempty start)
  rw [ran] at verdict same
  exact ⟨⟨verdict.2.2, verdict.2.1⟩, verdict.1, same.trans uncancelled⟩

theorem reached_extend (inside : previous + 1 < run.count) (paired : Paired origin (previous + 1))
    (reached : Reached origin previous link world)
    (ran : (run.extend previous link).run.run (withMemory codec) world = (.ok step, later)) :
    Reached origin (previous + 1) step.link later := by
  obtain ⟨verdict, same⟩ := ensures_withMemory codec
    (fills_extend (backed_false run.count _) link inside reached.gains)
  rw [ran] at verdict same
  exact ⟨⟨verdict.2.2 paired, verdict.2.1⟩, verdict.1, same.trans reached.uncancelled⟩

/-! ### Single steps -/

/-- The given chunks go through the chain one by one, each on its own, up to the first failure. -/
def singleSteps (run : Run) : List ChunkIndex → Plan Unit
  | [] => pure ()
  | chunk :: rest => do
    let _ ← Plan.ofJob (run.chainStep chunk)
    singleSteps run rest

/-- **A step reads back what it goes on from.** -/
theorem run_chainStep (stored : link.StoredAt previous world.state.1) :
    (run.chainStep (previous + 1)).run.run (withMemory codec) world =
      (run.extend previous link).run.run (withMemory codec) world :=
  (Job.run_bind_of_ok (run_state_of_some stored.state)).trans
    (Job.run_bind_of_ok (run_bitstream_of_some stored.output))

/-- **The steps after a chunk are the rest of the chain.** -/
theorem run_singleSteps (paired : ∀ chunk < run.count, Paired origin chunk) {remaining : Nat}
    (length : previous + 1 + remaining = run.count) (reached : Reached origin previous link world) :
    ∃ result later,
      (run.chainFrom previous link remaining).run.run (withMemory codec) world = (result, later) ∧
      (run.singleSteps (List.range' (previous + 1) remaining)).run.run (withMemory codec) world =
        (result.map fun _ => (), later) ∧
      ∀ rest, result = .ok rest → ∀ first : ChainStep, first.link = link →
        (rest.getLastD first).link.StoredAt (previous + remaining) later.state.1 := by
  induction remaining generalizing previous link world with
  | zero =>
    refine ⟨.ok [], world, rfl, rfl, ?_⟩
    rintro _ ⟨⟩ first rfl
    exact reached.stored
  | succ remaining ih =>
    have inside : previous + 1 < run.count := by
      simp only [ChunkIndex] at *
      omega
    rw [chainFrom, Plan.run_bind_of_ok (Plan.run_checkCancelled reached.uncancelled .rebase),
      List.range'_succ, singleSteps]
    cases ran : (run.extend previous link).run.run (withMemory codec) world with
    | mk result later =>
      have whole := (Plan.run_ofJob (run.extend previous link)).trans ran
      have single : (Plan.ofJob (run.chainStep (previous + 1))).run.run (withMemory codec) world =
          (result, later) := (Plan.run_ofJob _).trans ((run_chainStep reached.stored).trans ran)
      cases result with
      | error error =>
        refine ⟨.error error, later, Plan.run_bind_of_error whole, ?_, nofun⟩
        exact Plan.run_bind_of_error single
      | ok step =>
        obtain ⟨result, final, chained, stepped, stored⟩ := ih
          (by simp only [ChunkIndex] at *; omega)
          (reached_extend inside (paired _ inside) reached ran)
        rw [Plan.run_bind_of_ok whole, Plan.run_bind_of_ok single]
        cases result with
        | error error =>
          exact ⟨.error error, final, Plan.run_bind_of_error chained, stepped, nofun⟩
        | ok rest =>
          refine ⟨.ok (step :: rest), final, Plan.run_bind_of_ok chained, stepped, ?_⟩
          rintro _ ⟨⟩ first -
          rw [List.getLastD_cons, ← Nat.add_assoc, Nat.add_right_comm]
          exact stored rest rfl step rfl

/-- **Single steps are the whole chain.** Let all inputs of the chain be there, and the final state
of no chunk without its rebased stream. Then whatever else is there, whatever the policy is and
whichever codec calls fail, the chunks one after another, each on its own, up to the first failure,
leave the same ledger with the same error or success as the chain without a cancellation, and the
output of that is what the last of its slots holds then. A step that comes before the step of the
chunk before it reports the first slot of that which it misses, and leaves all as it was. -/
theorem singleSteps_eq_chain (run : Run) (nonempty : run.chunks ≠ [])
    (codec : (call : Codec.Call) → τ → call.Answer × τ) (world : World (MemoryLedger × τ)) :
    (world.cancelled = false → (∀ key ∈ chainInputs run.count, world.state.1.Has key) →
      (∀ chunk < run.count, Paired world.state.1 chunk) →
      (run.singleSteps run.indices).run.run (withMemory codec) world =
        ((run.chain.run.run (withMemory codec) world).1.map fun _ => (),
          (run.chain.run.run (withMemory codec) world).2) ∧
      ∀ result, (run.chain.run.run (withMemory codec) world).1 = .ok result →
        (run.chain.run.run (withMemory codec) world).2.state.1.get? ⟨run.count - 1, .merged⟩ =
          some (.bitstream result.output)) ∧
    ∀ previous : ChunkIndex,
      (¬ world.state.1.Has ⟨previous, .rebasedState⟩ →
        (run.chainStep (previous + 1)).run.run (withMemory codec) world =
          (.error (.notFound ⟨previous, .rebasedState⟩), world)) ∧
      (world.state.1.Typed → world.state.1.Has ⟨previous, .rebasedState⟩ →
        ¬ world.state.1.Has ⟨previous, .merged⟩ →
        (run.chainStep (previous + 1)).run.run (withMemory codec) world =
          (.error (.notFound ⟨previous, .merged⟩), world)) := by
  refine ⟨fun uncancelled held paired => ?_, fun previous => ⟨fun empty => ?_, ?_⟩⟩
  · have positive : 0 < run.count := List.length_pos_iff.mpr nonempty
    have length : 0 + 1 + (run.count - 1) = run.count := by
      rw [Nat.zero_add, Nat.add_comm, Nat.sub_add_cancel positive]
    have order : run.indices = 0 :: List.range' (0 + 1) (run.count - 1) := by
      rw [indices, List.range_eq_range', ← List.range'_succ, Nat.sub_add_cancel positive]
    rw [chain_eq, run_requiring held, order, singleSteps]
    cases ran : run.seed.run.run (withMemory codec) world with
    | mk result later =>
      have whole := (Plan.run_ofJob run.seed).trans ran
      have single : (Plan.ofJob (run.chainStep 0)).run.run (withMemory codec) world =
        (result, later) := whole
      cases result with
      | error error =>
        rw [Plan.run_bind_of_error whole, Plan.run_bind_of_error single]
        exact ⟨rfl, nofun⟩
      | ok first =>
        obtain ⟨result, final, chained, stepped, stored⟩ :=
          run_singleSteps paired length (reached_seed positive uncancelled ran)
        rw [Plan.run_bind_of_ok whole, Plan.run_bind_of_ok single, stepped]
        cases result with
        | error error =>
          rw [Plan.run_bind_of_error chained]
          exact ⟨rfl, nofun⟩
        | ok rest =>
          rw [Plan.run_bind_of_ok chained]
          refine ⟨rfl, ?_⟩
          rintro _ ⟨⟩
          have output := (stored rest rfl first rfl).output
          rwa [Nat.zero_add] at output
  · exact Job.run_bind_of_error (Job.run_bind_of_error (run_get_of_empty empty))
  · intro typed held empty
    obtain ⟨artifact, found⟩ := MemoryLedger.has_iff_exists.mp held
    cases artifact with
    | bitstream stream => cases typed _ _ found
    | state handle =>
      refine (Job.run_bind_of_ok (run_state_of_some found)).trans ?_
      exact Job.run_bind_of_error (Job.run_bind_of_error (run_get_of_empty empty))

/-- A codec that counts its calls. -/
def counting (call : Codec.Call) (calls : Nat) : call.Answer × Nat :=
  (Codec.verbatim.answer call, calls + 1)

/-- A chain over two chunks that was torn: the first merged stream is there without the state, and
the second rebased stream is another than what would be computed. -/
def tornChain : World (MemoryLedger × Nat) :=
  ⟨1, false, ((readyForChain.insert ⟨0, .merged⟩ (.bitstream ⟨[7]⟩)).insert ⟨1, .rebased⟩
    (.bitstream ⟨[9]⟩), 0)⟩

/-- The chunks of a torn chain, step by step. -/
def tornSteps : Except RunError Unit × World (MemoryLedger × Nat) :=
  (Run.singleSteps ⟨"clip", twoChunks, .resume⟩ [0, 1]).run.run (withMemory counting) tornChain

/-- Step by step a torn chain comes to its end: the second stream is rebased once more, and although
its slot keeps what it held, the new one is merged. The second step alone misses the state of the
first. -/
theorem singleSteps_eq_chain_tornChain :
    (twoChunks ≠ [] ∧ (∀ key ∈ chainInputs 2, tornChain.state.1.Has key) ∧
      ∀ chunk < 2, Paired tornChain.state.1 chunk) ∧
    (tornSteps.1 = .ok () ∧ tornSteps.2.state.2 = 2 ∧
      tornSteps.2.state.1.get? ⟨1, .rebased⟩ = some (.bitstream ⟨[9]⟩) ∧
      tornSteps.2.state.1.get? ⟨1, .merged⟩ = some (.bitstream ⟨[7, 2, 1]⟩)) ∧
    (Run.chainStep ⟨"clip", twoChunks, .resume⟩ 1).run.run (withMemory counting) tornChain =
      (.error (.notFound ⟨0, .rebasedState⟩), tornChain) := by
  have nonempty : twoChunks ≠ [] := List.cons_ne_nil _ _
  have held : ∀ key ∈ chainInputs 2, tornChain.state.1.Has key := by
    unfold MemoryLedger.Has
    decide
  have paired : ∀ chunk < 2, Paired tornChain.state.1 chunk := by
    unfold Paired MemoryLedger.Has
    decide
  have empty : ¬ tornChain.state.1.Has ⟨0, .rebasedState⟩ := by
    unfold MemoryLedger.Has
    decide
  obtain ⟨whole, early⟩ :=
    singleSteps_eq_chain ⟨"clip", twoChunks, .resume⟩ nonempty counting tornChain
  obtain ⟨agree, output⟩ := whole rfl held paired
  have agree : tornSteps = _ := agree
  refine ⟨⟨nonempty, held, paired⟩, ?_, (early 0).1 empty⟩
  rw [agree]
  exact ⟨rfl, rfl, rfl, output _ rfl⟩

end Run

end Transcode
