/-
**A run refines the stage recurrence**, whatever the schedule.

* `Blueprint.reliable` — a run with a codec that succeeds on the calls of the recurrence, and
  nothing that interrupts it.
* `Run.endsIn_fresh` — from the empty ledger, every interleaving of the single ledger operations and
  codec calls ends well. `Run.endsIn_canonical` — it leaves exactly the canonical artifacts, nine
  for each chunk and one less for the first.
-/
import Transcode.Proofs.Run.Completion

namespace Transcode

namespace Blueprint

open Run

/-- A run in reliable surroundings. -/
def reliable (run : Run) {codec : Codec} {rows : ChunkIndex → Row}
    (recurrence : Recurrence codec run.chunks rows) : Blueprint where
  run := run
  codec := codec
  rows := rows
  recurrence := recurrence
  setting := exactly codec
  answers call answer := answer = codec.answer call
  serves := serves_exactly
  unreliable := False
  excused _ := False
  grounds := id
  truthful := .inl
  interruptible never := never.elim
  entitled _ := True

/-- An empty ledger is vacant throughout. -/
theorem standing_of_empty (blueprint : Blueprint) (entitled : ∀ key, blueprint.entitled key)
    {ledger : MemoryLedger} (empty : ∀ key, ledger.get? key = none) :
    blueprint.Standing (fun _ => False) ledger where
  filled _ _ never := never.elim
  vacant key _ _ := by
    rw [empty]
    exact blueprint.vacant_none (entitled key)

/-- Everything is vacant for a run that overwrites. -/
theorem standing_of_overwrite {blueprint : Blueprint}
    (overwrites : blueprint.run.policy = .overwrite) (ledger : MemoryLedger) :
    blueprint.Standing (fun _ => False) ledger where
  filled _ _ never := never.elim
  vacant key _ _ := by
    rw [Vacant, overwrites]
    trivial

/-- A ledger of canonical artifacts is vacant for every run over first chunks that either resumes
or may be stopped by anything. -/
theorem standing_of_within {blueprint : Blueprint} {count : Nat}
    (policy : blueprint.run.policy = .resume ∨
      (∀ error, blueprint.excused error) ∧ ∀ key, blueprint.entitled key)
    (answering : ∀ call, blueprint.answers call (blueprint.codec.answer call))
    {ledger : MemoryLedger} (within : ledger.Within (canonical blueprint.rows count)) :
    blueprint.Standing (fun _ => False) ledger where
  filled _ _ never := never.elim
  vacant key _ _ := by
    unfold Vacant
    split
    · next resume =>
      cases held : ledger.get? key with
      | none => exact .inl rfl
      | some artifact =>
        have here := within key artifact held
        refine .inr ⟨?_, earned_of_answers answering, by simp [resume]⟩
        rw [← here, canonical_eq_of_mem (canonical_isSome.mp (by rw [here]; rfl))]
        rfl
    · trivial
    · next strict =>
      obtain ⟨excused, entitled⟩ := policy.resolve_left (by simp [strict])
      exact (eq_or_ne _ none).imp (And.intro · (entitled key)) (And.intro · (excused _))

/-- Where all slots of the run are filled and no other has changed, the ledger is what it was,
overridden by the canonical artifacts. -/
theorem get?_of_filled {blueprint : Blueprint} {ledger later : MemoryLedger}
    (filled : ∀ key ∈ runKeys blueprint.run.count, blueprint.Filled key (later.get? key))
    (others : ∀ key ∉ runKeys blueprint.run.count, later.get? key = ledger.get? key) (key : Key) :
    later.get? key =
      (canonical blueprint.rows blueprint.run.count key).or (ledger.get? key) := by
  by_cases mine : key ∈ runKeys blueprint.run.count
  · obtain ⟨artifact, here⟩ := Option.isSome_iff_exists.mp (canonical_isSome.mpr mine)
    rw [here, Option.some_or, ← here, canonical_eq_of_mem mine]
    exact (filled key mine).held
  · rw [canonical_eq_none mine, Option.none_or]
    exact others key mine

end Blueprint

namespace Run

/-- **A fresh run in reliable surroundings** ends well under every schedule: with the merged stream
of the last chunk as its output, and the canonical artifacts in the ledger. -/
theorem endsIn_fresh {run : Run} {codec : Codec} {rows : ChunkIndex → Row} {last : Nat}
    (count : run.count = last + 1) (recurrence : Recurrence codec run.chunks rows)
    (concurrency : Nat) :
    Flow.EndsIn (· = inMemory codec)
      (fun result world => ∃ value, result = .ok value ∧ value.output = (rows last).merged ∧
        ∀ key, world.state.get? key = canonical rows run.count key)
      run.plan.run (World.fresh concurrency .empty) := by
  have ends := (Blueprint.reliable run recurrence).endsIn count id ⟨_, rfl⟩
    (Flow.free_fresh concurrency _) rfl
    (Blueprint.standing_of_empty _ (fun _ => trivial) MemoryLedger.get?_empty)
  refine ends.mono fun result world => ?_
  rintro ⟨value, rfl, output, filled, others⟩
  refine ⟨value, rfl, output, fun key => ?_⟩
  exact (Blueprint.get?_of_filled filled others key).trans Option.or_none

/-- **The final ledger is the stage recurrence, under every schedule**: with a codec that succeeds
on the calls of the recurrence, a run into the empty ledger ends well, whatever the policy, the
number of workers and the interleaving of the single requests, and leaves exactly the canonical
artifacts: nine for each chunk, and one less for the first. -/
theorem endsIn_canonical {run : Run} {codec : Codec} {rows : ChunkIndex → Row}
    (chunks : run.chunks ≠ []) (recurrence : Recurrence codec run.chunks rows)
    (concurrency : Nat) :
    Flow.EndsIn (· = inMemory codec)
      (fun result world => (∃ value, result = .ok value) ∧
        (∀ key, world.state.get? key = canonical rows run.count key) ∧
        world.state.keys.length = 9 * run.count - 1)
      run.plan.run (World.fresh concurrency .empty) := by
  obtain ⟨last, count⟩ := count_eq_succ chunks
  refine (endsIn_fresh count recurrence concurrency).mono fun result world => ?_
  rintro ⟨value, rfl, -, same⟩
  refine ⟨⟨value, rfl⟩, same, ?_⟩
  rw [count, ← length_runKeys]
  refine MemoryLedger.length_keys (nodup_runKeys _) fun key => ?_
  rw [same, count, canonical_isSome]

/-- Two chunks and four workers. -/
theorem endsIn_canonical_twoChunks :
    twoChunks ≠ [] ∧ Recurrence Codec.verbatim twoChunks twoRows ∧
      Flow.EndsIn (· = inMemory Codec.verbatim)
        (fun result world => (∃ value, result = .ok value) ∧
          (∀ key, world.state.get? key = canonical twoRows 2 key) ∧
          world.state.keys.length = 17)
        (Run.plan ⟨"clip", twoChunks, .resume⟩).run (World.fresh 4 .empty) :=
  have nonempty : twoChunks ≠ [] := List.cons_ne_nil _ _
  ⟨nonempty, recurrence_twoChunks,
    @endsIn_canonical ⟨"clip", twoChunks, .resume⟩ _ _ nonempty recurrence_twoChunks 4⟩

end Run

end Transcode
