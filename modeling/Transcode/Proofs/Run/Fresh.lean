/-
**A fresh run succeeds exactly if the stage recurrence can be carried out.**

* `Codec.rows` are the rows that a codec leads to, with empty results where it fails; they satisfy
  the recurrence of the `patched` codec.
* `Run.recurrence_of_ok` — where one schedule of a fresh run ends well, no call of the recurrence
  fails, for every artifact was stored by a task whose codec call was answered.
* `Run.succeeds_iff` — the recurrence is all that a fresh run needs. `Run.fresh` is what it leads to
  by one schedule; `Run.fresh_of_recurrence` puts that in terms of the recurrence.
-/
import Transcode.Proofs.Run.Refinement
import Transcode.Proofs.Schedule.Drive

namespace Transcode

namespace Codec

/-- The value, or the given one after a failure. -/
def orElse {α : Type} (default : α) : Except CodecError α → α
  | .ok value => value
  | .error _ => default

/-- The codec that yields empty results where the given one fails. -/
def patched (codec : Codec) : Codec where
  encode raw := .ok (orElse ⟨[]⟩ (codec.encode raw))
  decodeState stream := .ok (orElse ⟨[]⟩ (codec.decodeState stream))
  encodeGivenState raw predecessor predictor :=
    .ok (orElse ⟨⟨[]⟩, ⟨[]⟩⟩ (codec.encodeGivenState raw predecessor predictor))
  rebase raw newState oldState predictor :=
    .ok (orElse ⟨⟨[]⟩, ⟨[]⟩⟩ (codec.rebase raw newState oldState predictor))
  merge head tail := .ok (orElse ⟨[]⟩ (codec.merge head tail))
  decode stream := .ok (orElse [] (codec.decode stream))

theorem eq_orElse {α : Type} (default : α) (result : Except CodecError α) :
    result = .ok (orElse default result) ∨ ∃ error, result = .error error := by
  cases result with
  | ok value => exact .inl rfl
  | error error => exact .inr ⟨error, rfl⟩

/-- A codec answers as if patched, or fails. -/
theorem answer_patched (codec : Codec) (call : Call) :
    codec.answer call = codec.patched.answer call ∨ ∃ error, codec.answer call = .error error := by
  cases call <;> exact eq_orElse _ _

/-- The row of a first chunk. -/
def firstRow (codec : Codec) (raw : RawChunk) : Row :=
  let baseline := orElse ⟨[]⟩ (codec.encode raw)
  let decoded := orElse ⟨[]⟩ (codec.decodeState baseline)
  ⟨baseline, decoded, ⟨baseline, decoded⟩, ⟨baseline, decoded⟩, ⟨baseline, decoded⟩, baseline⟩

/-- The row of a chunk after another. -/
def nextRow (codec : Codec) (raw : RawChunk) (previous : Row) : Row :=
  let baseline := orElse ⟨[]⟩ (codec.encode raw)
  let decoded := orElse ⟨[]⟩ (codec.decodeState baseline)
  let v0 := orElse ⟨⟨[]⟩, ⟨[]⟩⟩ (codec.encodeGivenState raw previous.decoded baseline)
  let v1 := orElse ⟨⟨[]⟩, ⟨[]⟩⟩ (codec.encodeGivenState raw previous.v0.state baseline)
  let rebased := orElse ⟨⟨[]⟩, ⟨[]⟩⟩
    (codec.rebase raw previous.rebased.state previous.v0.state v1.stream)
  ⟨baseline, decoded, v0, v1, rebased, orElse ⟨[]⟩ (codec.merge previous.merged rebased.stream)⟩

/-- **The rows that a codec leads to.** -/
def rows (codec : Codec) (chunks : List RawChunk) : ChunkIndex → Row
  | 0 => codec.firstRow (chunks[0]?.getD ⟨0, "", []⟩)
  | previous + 1 =>
    codec.nextRow (chunks[previous + 1]?.getD ⟨0, "", []⟩) (codec.rows chunks previous)

/-- A patched codec carries the recurrence out. -/
theorem recurrence_patched (codec : Codec) (chunks : List RawChunk) :
    Recurrence codec.patched chunks (codec.rows chunks) where
  opens raw found := by
    rw [rows, found]
    exact ⟨rfl, rfl, rfl, rfl, rfl, rfl⟩
  continues previous raw found := by
    rw [rows, found]
    exact ⟨rfl, rfl, rfl, rfl, rfl, rfl⟩

end Codec

namespace Blueprint

open Run

/-- A run whose codec may turn out to fail. -/
def doubtful (run : Run) (codec : Codec) : Blueprint where
  run := run
  codec := codec.patched
  rows := codec.rows run.chunks
  recurrence := codec.recurrence_patched run.chunks
  setting := exactly codec
  answers call answer := answer = codec.answer call
  serves := serves_exactly
  unreliable := True
  excused _ := True
  grounds _ := trivial
  truthful := by
    rintro call _ rfl
    exact (codec.answer_patched call).imp_right fun failed => ⟨fun _ => trivial, failed⟩
  interruptible never := never.elim
  entitled _ := True

end Blueprint

namespace Run

/-- **What was stored was computed**: where a fresh run ends well, the codec carries the recurrence
out. -/
theorem recurrence_of_ok {run : Run} {codec : Codec} {concurrency : Nat} {value : Result}
    {trace : List (Exchange interface)} {world : World MemoryLedger}
    (path : Flow.Path (exactly codec) Eq run.plan.run (World.fresh concurrency .empty) trace
      (.done (.ok value)) world) :
    Recurrence codec run.chunks (codec.rows run.chunks) := by
  by_cases chunks : run.chunks = []
  · constructor <;> simp [chunks]
  obtain ⟨last, count⟩ := count_eq_succ chunks
  let blueprint := Blueprint.doubtful run codec
  have ended := (blueprint.ensures_plan_alone count
    (Blueprint.standing_of_empty _ (fun _ => trivial) MemoryLedger.get?_empty) _ rfl
    (fun fired => by cases fired)
    trace _ world path).2 _ rfl
  have earned {chunk : ChunkIndex} {raw : RawChunk} (found : run.chunks[chunk]? = some raw)
      {kind : Kind} (present : (⟨chunk, kind⟩ : Key) ≠ ⟨0, .rebased⟩) :
      blueprint.Earned raw ⟨chunk, kind⟩ :=
    (ended.1.2.filled _ (Blueprint.slots_of_lt (List.getElem?_eq_some_iff.mp found).1 present)
      trivial).earned raw found
  constructor
  · intro raw found
    have patched := (codec.recurrence_patched run.chunks).opens raw found
    exact { patched with
      baseline := (earned found (by decide) : blueprint.Earned raw ⟨0, .baseline⟩).symm
      decoded := (earned found (by decide) : blueprint.Earned raw ⟨0, .decodeState⟩).symm }
  · intro previous raw found
    have own {kind : Kind} : blueprint.Earned raw ⟨previous + 1, kind⟩ := earned found (by simp)
    exact {
      baseline := (own : blueprint.Earned raw ⟨previous + 1, .baseline⟩).symm
      decoded := (own : blueprint.Earned raw ⟨previous + 1, .decodeState⟩).symm
      v0 := (own : blueprint.Earned raw ⟨previous + 1, .encodeV0⟩).symm
      v1 := (own : blueprint.Earned raw ⟨previous + 1, .encodeV1⟩).symm
      rebased := (own : blueprint.Earned raw ⟨previous + 1, .rebased⟩).symm
      merged := (own : blueprint.Earned raw ⟨previous + 1, .merged⟩).symm }

/-- A fresh run succeeds: taken to its end from the empty ledger, it yields a result. -/
def Succeeds (run : Run) (codec : Codec) : Prop :=
  ∃ value, (Flow.run (inMemory codec) run.plan.run (World.fresh 1 .empty)).1 = .ok value

/-- **The recurrence is all that a fresh run needs.** -/
theorem succeeds_iff {run : Run} {codec : Codec} :
    run.Succeeds codec ↔ run.chunks ≠ [] ∧ ∃ rows, Recurrence codec run.chunks rows := by
  obtain ⟨trace, path⟩ := @Flow.path_run _ _ _ (exactly codec) (inMemory codec) rfl run.plan.run
    (World.fresh 1 .empty) (Nat.add_pos_left (Flow.free_fresh 1 _) _)
  constructor
  · rintro ⟨value, succeeded⟩
    rw [succeeded] at path
    refine ⟨fun empty => ?_, _, recurrence_of_ok path⟩
    simp [plan, count, empty] at succeeded
    cases succeeded
  · rintro ⟨chunks, rows, recurrence⟩
    obtain ⟨last, count⟩ := count_eq_succ chunks
    obtain ⟨value, ended, -⟩ := (Blueprint.reliable run recurrence).ok_of_path count id rfl
      (Blueprint.standing_of_empty _ (fun _ => trivial) MemoryLedger.get?_empty) path
    exact ⟨value, ended⟩

/-- A fresh run, taken to its end from the empty ledger: its result, and the world it leaves. -/
def fresh (run : Run) (codec : Codec) : Except RunError Result × World MemoryLedger :=
  Flow.run (inMemory codec) run.plan.run (World.fresh 1 .empty)

/-- **What a fresh run leads to**, by the rows of its chunks. -/
theorem fresh_of_recurrence {run : Run} {codec : Codec} {rows : ChunkIndex → Row} {last : Nat}
    (count : run.count = last + 1) (recurrence : Recurrence codec run.chunks rows) :
    ∃ solo, (run.fresh codec).1 = .ok solo ∧ solo.output = (rows last).merged ∧
      ∀ key, (run.fresh codec).2.state.get? key = canonical rows run.count key := by
  obtain ⟨trace, path⟩ := @Flow.path_run _ _ _ (exactly codec) (inMemory codec) rfl run.plan.run
    (World.fresh 1 .empty) (Nat.add_pos_left (Flow.free_fresh 1 _) _)
  obtain ⟨solo, same, output, filled, others⟩ :=
    (Blueprint.reliable run recurrence).ok_of_path count id rfl
      (Blueprint.standing_of_empty _ (fun _ => trivial) MemoryLedger.get?_empty) path
  refine ⟨solo, same, output, fun key => ?_⟩
  exact (Blueprint.get?_of_filled filled others key).trans Option.or_none

theorem exists_rows_of_fresh {run : Run} {codec : Codec} {solo : Result}
    (ended : (run.fresh codec).1 = .ok solo) :
    ∃ rows last, Recurrence codec run.chunks rows ∧ run.count = last + 1 ∧
      solo.output = (rows last).merged ∧
      ∀ key, (run.fresh codec).2.state.get? key = canonical rows run.count key := by
  obtain ⟨chunks, rows, recurrence⟩ := succeeds_iff.mp ⟨solo, ended⟩
  obtain ⟨last, count⟩ := count_eq_succ chunks
  obtain ⟨value, same, output, stored⟩ := fresh_of_recurrence count recurrence
  cases ended.symm.trans same
  exact ⟨rows, last, recurrence, count, output, stored⟩

end Run

end Transcode
