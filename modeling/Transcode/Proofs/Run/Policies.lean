/-
**Runs over a ledger that is not empty**, and that may hold anything at all in any slot.

* A run that overwrites never reads what an earlier run has left: `Run.overwrites_of_path` — it ends
  as a fresh run does, and leaves the old artifacts where it has none of its own.
* `Blueprint.guarded` is a strict run: it is entitled to the slots that were empty when it began,
  and a slot that was taken is its only excuse. So it never changes a stored artifact
  (`Run.within_of_strict`), and ends well exactly if all its slots were empty
  (`Run.refuses_of_path`).
* `Run.overwrites_and_refuses` compares both with a fresh run, under every schedule.
-/
import Transcode.Proofs.Run.Afresh
import Transcode.Proofs.Run.Fresh

namespace Transcode

variable {run : Run} {codec : Codec} {rows : ChunkIndex → Row} {last : Nat}
  {ledger : MemoryLedger} {world : World MemoryLedger} {concurrency : Nat}
  {trace : List (Exchange Run.interface)} {result : Except RunError Run.Result}

namespace Run

/-! ### Overwriting -/

/-- **A run that overwrites** computes everything and ends well, whatever the ledger holds. -/
theorem overwrites_of_path (overwrites : run.policy = .overwrite) (count : run.count = last + 1)
    (recurrence : Recurrence codec run.chunks rows)
    (path : Flow.Path (exactly codec) Eq run.plan.run (World.fresh concurrency ledger) trace
      (.done result) world) :
    ∃ value, result = .ok value ∧ value.output = (rows last).merged ∧
      (value.stages = Stage.all.map fun stage => ⟨stage, run.count, 0⟩) ∧
      ∀ key, world.state.get? key = (canonical rows run.count key).or (ledger.get? key) := by
  have standing : (Blueprint.reliable run recurrence).Standing (fun _ => False) ledger :=
    Blueprint.standing_of_overwrite overwrites ledger
  obtain ⟨value, rfl, output, filled, others⟩ :=
    (Blueprint.reliable run recurrence).ok_of_path count id rfl standing path
  have anew : run.policy ≠ .resume := by simp [overwrites]
  have reported := (gives_plan anew ledger (World.fresh concurrency ledger) rfl
    (fun fired => by cases fired) trace _ world (path.mono fun _ _ _ => trivial)).2 _ rfl
  exact ⟨value, rfl, output, reported, Blueprint.get?_of_filled filled others⟩

end Run

/-! ### Refusing to overwrite -/

namespace Blueprint

open Run

/-- A strict run over a ledger, with a codec that succeeds on the calls of the recurrence. -/
def guarded (run : Run) {codec : Codec} {rows : ChunkIndex → Row}
    (recurrence : Recurrence codec run.chunks rows) (ledger : MemoryLedger) : Blueprint where
  run := run
  codec := codec
  rows := rows
  recurrence := recurrence
  setting := exactly codec
  answers call answer := answer = codec.answer call
  serves := serves_exactly
  unreliable := ∃ key ∈ runKeys run.count, (ledger.get? key).isSome
  excused error := ∃ key ∈ runKeys run.count, (ledger.get? key).isSome ∧
    error = .duplicateArtifact key
  grounds := fun ⟨key, mine, taken, _⟩ => ⟨key, mine, taken⟩
  truthful := .inl
  interruptible never := never.elim
  entitled key := ledger.get? key = none

/-- Every slot is empty or taken, and a strict run is prepared for both. -/
theorem standing_guarded (strict : run.policy = .strict)
    (recurrence : Recurrence codec run.chunks rows) :
    (guarded run recurrence ledger).Standing (fun _ => False) ledger := by
  refine ⟨fun _ _ never => never.elim, fun key mine _ => ?_⟩
  rw [Vacant, show (guarded run recurrence ledger).run.policy = _ from strict]
  by_cases absent : ledger.get? key = none
  · exact .inl ⟨absent, absent⟩
  · exact .inr ⟨absent, key, mine, Option.isSome_iff_ne_none.mpr absent, rfl⟩

end Blueprint

namespace Run

/-- **A strict run changes no stored artifact**, at any moment of any schedule. -/
theorem within_of_strict (strict : run.policy = .strict) (count : run.count = last + 1)
    (recurrence : Recurrence codec run.chunks rows)
    {flow : Flow interface (Except RunError Result)}
    (path : Flow.Path (exactly codec) Eq run.plan.run (World.fresh concurrency ledger) trace flow
      world) : ledger.Within world.state.get? := by
  let blueprint := Blueprint.guarded run recurrence ledger
  intro key artifact held
  rcases blueprint.sound count (Blueprint.standing_guarded strict recurrence)
    (fun fired => by cases fired) path key with same | ⟨-, filled⟩
  · exact same.trans held
  · have absent : ledger.get? key = none := filled.entitled strict
    rw [held] at absent
    cases absent

/-- **A strict run ends well** with the output of a fresh run, exactly if none of its slots is
taken; and otherwise it names one that is. -/
theorem refuses_of_path (strict : run.policy = .strict) (count : run.count = last + 1)
    (recurrence : Recurrence codec run.chunks rows)
    (path : Flow.Path (exactly codec) Eq run.plan.run (World.fresh concurrency ledger) trace
      (.done result) world) :
    ((∃ value, result = .ok value) ↔ ∀ key ∈ runKeys run.count, ledger.get? key = none) ∧
      (∀ value, result = .ok value → value.output = (rows last).merged) ∧
      ∀ error, result = .error error → ∃ key ∈ runKeys run.count,
        (ledger.get? key).isSome ∧ error = .duplicateArtifact key := by
  let blueprint := Blueprint.guarded run recurrence ledger
  have ended := (blueprint.ensures_plan_alone count
    (Blueprint.standing_guarded strict recurrence) (World.fresh concurrency ledger) rfl
    (fun fired => by cases fired) trace _ world path).2 result rfl
  cases result with
  | ok value =>
    obtain ⟨⟨output, finished⟩, -⟩ := ended
    refine ⟨⟨fun _ key mine => ?_, fun _ => ⟨value, rfl⟩⟩, ?_, fun error failed => by cases failed⟩
    · exact (finished.filled key mine trivial).entitled strict
    · rintro _ ⟨⟩
      exact output
  | error error =>
    obtain ⟨key, mine, taken, rfl⟩ := ended
    refine ⟨⟨fun ⟨value, fine⟩ => (by cases fine), fun free => ?_⟩, fun value fine => ?_, ?_⟩
    · rw [free key mine] at taken
      cases taken
    · cases fine
    · rintro _ ⟨⟩
      exact ⟨key, mine, taken, rfl⟩

/-! ### Both policies against a fresh run -/

/-- A run with a codec without side effects ends as stated if each schedule that ends, ends so. -/
theorem endsIn_exactly {statement : Except RunError Result → World MemoryLedger → Prop}
    (holds : ∀ trace result world,
      Flow.Path (exactly codec) Eq run.plan.run (World.fresh concurrency ledger) trace
        (.done result) world → statement result world) :
    Flow.EndsIn (· = inMemory codec) statement run.plan.run (World.fresh concurrency ledger) := by
  show Flow.EndsIn (exactly codec).services _ _ _
  exact Flow.endsIn_of_path ⟨_, rfl⟩ (Nat.add_pos_left (Flow.free_fresh concurrency ledger) _) holds

/-- **Whatever the ledger holds, an overwriting run ends as a fresh run does**, under every
schedule: nothing is skipped, the output is the same, and the artifacts of the fresh run override
what was stored. **A strict run changes no stored artifact**; it ends well, with that same output,
exactly if nothing is stored where a fresh run stores, and names an artifact in the way otherwise.
-/
theorem overwrites_and_refuses {solo : Result} (ended : (run.fresh codec).1 = .ok solo)
    (ledger : MemoryLedger) (concurrency : Nat) :
    Flow.EndsIn (· = inMemory codec)
        (fun result world => ∃ value, result = .ok value ∧ value.output = solo.output ∧
          (value.stages = Stage.all.map fun stage => ⟨stage, run.count, 0⟩) ∧
          ∀ key, world.state.get? key =
            ((run.fresh codec).2.state.get? key).or (ledger.get? key))
        (plan { run with policy := .overwrite }).run (World.fresh concurrency ledger) ∧
      Flow.EndsIn (· = inMemory codec)
        (fun result world =>
          ((∃ value, result = .ok value) ↔
            ∀ key, ((run.fresh codec).2.state.get? key).isSome → ledger.get? key = none) ∧
          (∀ value, result = .ok value → value.output = solo.output) ∧
          (∀ error, result = .error error → ∃ key,
            ((run.fresh codec).2.state.get? key).isSome ∧ (ledger.get? key).isSome ∧
            error = .duplicateArtifact key) ∧
          ledger.Within world.state.get?)
        (plan { run with policy := .strict }).run (World.fresh concurrency ledger) := by
  obtain ⟨rows, last, recurrence, count, output, stored⟩ := exists_rows_of_fresh ended
  have written (key : Key) :
      ((run.fresh codec).2.state.get? key).isSome ↔ key ∈ runKeys run.count := by
    rw [stored, canonical_isSome]
  let rewriting : Run := { run with policy := .overwrite }
  let guarding : Run := { run with policy := .strict }
  have overwrites : rewriting.policy = .overwrite := rfl
  have strict : guarding.policy = .strict := rfl
  constructor
  · refine endsIn_exactly fun trace result world path => ?_
    obtain ⟨value, rfl, same, stages, held⟩ :=
      overwrites_of_path overwrites count recurrence path
    refine ⟨value, rfl, same.trans output.symm, stages, fun key => ?_⟩
    rw [stored]
    exact held key
  · refine endsIn_exactly fun trace result world path => ?_
    obtain ⟨wellEnded, same, refused⟩ := refuses_of_path strict count recurrence path
    simp only [written, output]
    refine ⟨wellEnded, same, fun error failed => ?_, ?_⟩
    · obtain ⟨key, mine, taken, rfl⟩ := refused error failed
      exact ⟨key, mine, taken, rfl⟩
    · exact within_of_strict strict count recurrence path

/-- Two chunks, where an earlier source has left its own merged stream of the second. -/
theorem overwrites_and_refuses_twoChunks :
    ∃ solo, (fresh ⟨"clip", twoChunks, .resume⟩ .verbatim).1 = .ok solo ∧
      Flow.EndsIn (· = inMemory .verbatim)
        (fun result _ => ∃ value, result = .ok value ∧ value.output = solo.output)
        (plan ⟨"clip", twoChunks, .overwrite⟩).run
        (World.fresh 4 (.insert .empty ⟨1, .merged⟩ (.bitstream ⟨[9]⟩))) ∧
      Flow.EndsIn (· = inMemory .verbatim)
        (fun result world => result = .error (.duplicateArtifact ⟨1, .merged⟩) ∧
          world.state.get? ⟨1, .merged⟩ = some (.bitstream ⟨[9]⟩))
        (plan ⟨"clip", twoChunks, .strict⟩).run
        (World.fresh 4 (.insert .empty ⟨1, .merged⟩ (.bitstream ⟨[9]⟩))) := by
  let run : Run := ⟨"clip", twoChunks, .resume⟩
  obtain ⟨solo, ended⟩ : run.Succeeds .verbatim :=
    succeeds_iff.mpr ⟨List.cons_ne_nil _ _, twoRows, recurrence_twoChunks⟩
  let ledger := MemoryLedger.insert .empty ⟨1, .merged⟩ (.bitstream ⟨[9]⟩)
  obtain ⟨rewritten, refused⟩ := @overwrites_and_refuses run _ _ ended ledger 4
  refine ⟨solo, ended, rewritten.mono ?_, refused.mono ?_⟩
  · rintro result world ⟨value, rfl, same, -⟩
    exact ⟨value, rfl, same⟩
  · rintro result world ⟨wellEnded, -, named, kept⟩
    refine ⟨?_, kept _ _ rfl⟩
    have stored : ((run.fresh .verbatim).2.state.get? ⟨1, .merged⟩).isSome := by
      obtain ⟨rows, last, -, -, -, stored⟩ := exists_rows_of_fresh ended
      rw [stored, canonical_isSome]
      decide
    cases result with
    | ok value => cases wellEnded.mp ⟨value, rfl⟩ _ stored
    | error error =>
      obtain ⟨key, -, taken, rfl⟩ := named error rfl
      by_cases same : key = ⟨1, .merged⟩
      · rw [same]
      · rw [MemoryLedger.get?_insert_of_ne _ same] at taken
        cases taken

end Run

end Transcode
