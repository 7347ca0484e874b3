/-
**Tasks of the barrier stages.** A task that finds its inputs filled leaves its outputs filled.

* `Follows` says how a lineage runs through the rows; both lineages do (`follows_v0`, `follows_v1`),
  each through slots of its own.
* `promises_compute` is what a task does when it is not skipped, `promises_barrierTask` the task.
-/
import Transcode.Proofs.Run.Requests
import Transcode.Run.Barrier

namespace Transcode

theorem Run.raw_eq_ok {run : Run} {chunk : ChunkIndex} {raw : RawChunk}
    (found : run.chunks[chunk]? = some raw) : run.raw chunk = .ok raw := by
  rw [Run.raw, found]

namespace Blueprint

open Run

variable {blueprint : Blueprint} {own reserved : Key → Prop} {ledger : MemoryLedger}

/-! ### Lineages -/

/-- **How a lineage runs through the rows**: what it makes of each chunk, and the states that it
continues. -/
structure Follows (blueprint : Blueprint) (lineage : Lineage) (made : ChunkIndex → Encoded)
    (continued : ChunkIndex → StateHandle) : Prop where
  inputs_zero : lineage.stage.inputs 0 = [⟨0, .baseline⟩, ⟨0, .decodeState⟩]
  inputs_succ : ∀ previous, lineage.stage.inputs (previous + 1) =
    [⟨previous, lineage.predecessor⟩, ⟨previous + 1, .baseline⟩]
  outputs : ∀ chunk, lineage.stage.outputs chunk =
    [⟨chunk, lineage.stream⟩, ⟨chunk, lineage.state⟩]
  apart : lineage.stream ≠ lineage.state
  stream : ∀ chunk, blueprint.slot ⟨chunk, lineage.stream⟩ = some (.bitstream (made chunk).stream)
  state : ∀ chunk, blueprint.slot ⟨chunk, lineage.state⟩ = some (.state (made chunk).state)
  predecessor : ∀ chunk,
    blueprint.slot ⟨chunk, lineage.predecessor⟩ = some (.state (continued chunk))
  opens : ∀ raw, blueprint.run.chunks[0]? = some raw →
    made 0 = ⟨(blueprint.rows 0).baseline, (blueprint.rows 0).decoded⟩
  continues : ∀ previous raw, blueprint.run.chunks[previous + 1]? = some raw →
    blueprint.codec.encodeGivenState raw (continued previous)
      (blueprint.rows (previous + 1)).baseline = .ok (made (previous + 1))
  earned_zero : ∀ raw, blueprint.Earned raw ⟨0, lineage.stream⟩ ∧
    blueprint.Earned raw ⟨0, lineage.state⟩
  earned_succ : ∀ previous raw, blueprint.answers (.encodeGivenState raw (continued previous)
      (blueprint.rows (previous + 1)).baseline) (.ok (made (previous + 1))) →
    blueprint.Earned raw ⟨previous + 1, lineage.stream⟩ ∧
      blueprint.Earned raw ⟨previous + 1, lineage.state⟩

theorem follows_v0 (blueprint : Blueprint) : blueprint.Follows .v0
    (fun chunk => (blueprint.rows chunk).v0) (fun chunk => (blueprint.rows chunk).decoded) where
  inputs_zero := rfl
  inputs_succ _ := rfl
  outputs _ := rfl
  apart := by decide
  stream _ := rfl
  state _ := rfl
  predecessor _ := rfl
  opens raw found := (blueprint.recurrence.opens raw found).v0
  continues previous raw found := (blueprint.recurrence.continues previous raw found).v0
  earned_zero _ := ⟨trivial, trivial⟩
  earned_succ _ _ answered := ⟨answered, answered⟩

theorem follows_v1 (blueprint : Blueprint) : blueprint.Follows .v1
    (fun chunk => (blueprint.rows chunk).v1) (fun chunk => (blueprint.rows chunk).v0.state) where
  inputs_zero := rfl
  inputs_succ _ := rfl
  outputs _ := rfl
  apart := by decide
  stream _ := rfl
  state _ := rfl
  predecessor _ := rfl
  opens raw found := (blueprint.recurrence.opens raw found).v1
  continues previous raw found := (blueprint.recurrence.continues previous raw found).v1
  earned_zero _ := ⟨trivial, trivial⟩
  earned_succ _ _ answered := ⟨answered, answered⟩

/-- Both slots of a lineage are filled. -/
theorem promises_storeLineage {lineage : Lineage} {made : ChunkIndex → Encoded}
    {continued : ChunkIndex → StateHandle} (follows : blueprint.Follows lineage made continued)
    {chunk : ChunkIndex} {raw : RawChunk} (found : blueprint.run.chunks[chunk]? = some raw)
    (earned : blueprint.Earned raw ⟨chunk, lineage.stream⟩ ∧
      blueprint.Earned raw ⟨chunk, lineage.state⟩)
    (vacant : ∀ key ∈ lineage.stage.outputs chunk, blueprint.Vacant key (ledger.get? key)) :
    blueprint.Promises (· ∈ lineage.stage.outputs chunk) (· ∈ lineage.stage.outputs chunk)
      (fun _ later => ∀ key ∈ lineage.stage.outputs chunk, blueprint.Filled key (later.get? key))
      (blueprint.run.storeLineage lineage chunk (made chunk)) ledger := by
  have first : (⟨chunk, lineage.stream⟩ : Key) ∈ lineage.stage.outputs chunk := by
    simp [follows.outputs]
  have second : (⟨chunk, lineage.state⟩ : Key) ∈ lineage.stage.outputs chunk := by
    simp [follows.outputs]
  refine Job.Ensures.bind (promises_store first first (follows.stream chunk)
    (earned.1.of_found found) (vacant _ first) fun later stream => ?_)
  refine promises_store second second (follows.state chunk) (earned.2.of_found found)
    (stream.vacant _ second (by simp [follows.apart.symm]) (vacant _ second)) fun final state => ?_
  intro key written
  rw [follows.outputs] at written
  rcases List.mem_cons.mp written with rfl | written
  · exact state.keeps _ stream.filled
  · exact List.mem_singleton.mp written ▸ state.filled

/-- **A chunk in one of the lineages.** -/
theorem promises_encodeLineage {lineage : Lineage} {made : ChunkIndex → Encoded}
    {continued : ChunkIndex → StateHandle} (follows : blueprint.Follows lineage made continued)
    {chunk : ChunkIndex} {raw : RawChunk} (found : blueprint.run.chunks[chunk]? = some raw)
    (inputs : ∀ key ∈ lineage.stage.inputs chunk, blueprint.Filled key (ledger.get? key))
    (vacant : ∀ key ∈ lineage.stage.outputs chunk, blueprint.Vacant key (ledger.get? key)) :
    blueprint.Promises (· ∈ lineage.stage.outputs chunk) (· ∈ lineage.stage.outputs chunk)
      (fun _ later => ∀ key ∈ lineage.stage.outputs chunk, blueprint.Filled key (later.get? key))
      (blueprint.run.encodeLineage lineage chunk) ledger := by
  cases chunk with
  | zero =>
    rw [follows.inputs_zero] at inputs
    refine Job.Ensures.bind (promises_bitstream (inputs _ (by simp)) rfl fun later first => ?_)
    refine Job.Ensures.bind (promises_state ((first _).1 (inputs _ (by simp))) rfl
      fun final second => ?_)
    rw [← follows.opens raw found]
    exact promises_storeLineage follows found (follows.earned_zero raw) fun key written =>
      (second key).2 written ((first key).2 written (vacant key written))
  | succ previous =>
    rw [follows.inputs_succ] at inputs
    refine Job.Ensures.bind (promises_state (inputs _ (by simp)) (follows.predecessor previous)
      fun later first => ?_)
    refine Job.Ensures.bind (promises_bitstream ((first _).1 (inputs _ (by simp))) rfl
      fun late second => ?_)
    refine Job.Ensures.bind (Job.ensures_ok (raw_eq_ok found) fun last third => ?_)
    refine Job.Ensures.bind (promises_call (follows.continues previous raw found)
      fun final fourth answered => ?_)
    exact promises_storeLineage follows found (follows.earned_succ previous raw answered)
      fun key written => (fourth key).2 written ((third key).2 written
        ((second key).2 written ((first key).2 written (vacant key written))))

/-! ### Tasks -/

/-- **What a task of a barrier stage does when it is not skipped.** -/
theorem promises_compute {stage : Stage} (barrier : stage.isSerial = false) {chunk : ChunkIndex}
    (inside : chunk < blueprint.run.count)
    (inputs : ∀ key ∈ stage.inputs chunk, blueprint.Filled key (ledger.get? key))
    (vacant : ∀ key ∈ stage.outputs chunk, blueprint.Vacant key (ledger.get? key)) :
    blueprint.Promises (· ∈ stage.outputs chunk) (· ∈ stage.outputs chunk)
      (fun _ later => ∀ key ∈ stage.outputs chunk, blueprint.Filled key (later.get? key))
      (blueprint.run.compute stage chunk) ledger := by
  obtain ⟨raw, found⟩ : ∃ raw, blueprint.run.chunks[chunk]? = some raw :=
    ⟨_, List.getElem?_eq_getElem inside⟩
  cases stage with
  | baselineEncode =>
    refine Job.Ensures.bind (Job.ensures_ok (raw_eq_ok found) fun later first => ?_)
    refine Job.Ensures.bind (promises_call (blueprint.recurrence.baseline found)
      fun final second answered => ?_)
    have mine : (⟨chunk, .baseline⟩ : Key) ∈ Stage.baselineEncode.outputs chunk :=
      List.mem_singleton_self _
    refine promises_store mine mine rfl (Earned.of_found answered found)
      ((second _).2 mine ((first _).2 mine (vacant _ mine))) fun last stored key written => ?_
    exact List.mem_singleton.mp written ▸ stored.filled
  | stateExtraction =>
    refine Job.Ensures.bind (promises_bitstream (inputs _ (List.mem_singleton_self _)) rfl
      fun later first => ?_)
    refine Job.Ensures.bind (promises_call (blueprint.recurrence.decoded found)
      fun final second answered => ?_)
    have mine : (⟨chunk, .decodeState⟩ : Key) ∈ Stage.stateExtraction.outputs chunk :=
      List.mem_singleton_self _
    refine promises_store mine mine rfl (Earned.of_found answered found)
      ((second _).2 mine ((first _).2 mine (vacant _ mine))) fun last stored key written => ?_
    exact List.mem_singleton.mp written ▸ stored.filled
  | encodeGivenStateV0 => exact promises_encodeLineage (follows_v0 blueprint) found inputs vacant
  | encodeGivenStateV1 => exact promises_encodeLineage (follows_v1 blueprint) found inputs vacant
  | rebase => cases barrier
  | merge => cases barrier

/-- **The task of a barrier stage for one chunk.** -/
theorem promises_barrierTask {stage : Stage} (barrier : stage.isSerial = false)
    {chunk : ChunkIndex} (inside : chunk < blueprint.run.count)
    (inputs : ∀ key ∈ stage.inputs chunk, blueprint.Filled key (ledger.get? key))
    (vacant : ∀ key ∈ stage.outputs chunk, blueprint.Vacant key (ledger.get? key)) :
    blueprint.Promises (· ∈ stage.outputs chunk) (· ∈ stage.outputs chunk)
      (fun _ later => ∀ key ∈ stage.outputs chunk, blueprint.Filled key (later.get? key))
      (blueprint.run.barrierTask stage chunk) ledger := by
  refine Job.Ensures.bind (promises_canSkip (fun key written => written) vacant
    fun later skips first filled => ?_)
  cases skips with
  | true =>
    exact Job.ensures_pure fun final second key written => (second key).1 (filled rfl key written)
  | false =>
    refine Job.Ensures.bind ((promises_compute barrier inside
      (fun key read => (first key).1 (inputs key read))
      fun key written => (first key).2 written (vacant key written)).mono
      (fun _ final filled => ?_) fun _ _ excused => excused)
    exact Job.ensures_pure fun last second key written => (second key).1 (filled key written)

end Blueprint

end Transcode
