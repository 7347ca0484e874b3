/-
**Recovery.** Whatever has happened to a ledger in runs over one source, a resumed run completes it.

* `History` are the ledgers that can come about: by runs over any first chunks under any policy and
  schedule, each stopped at any moment, interrupted, or failed by a codec call, and by deletions.
* `History.within` — every such ledger holds canonical artifacts only.
* `History.recovers` — from it a resumed run ends well under every schedule, with the canonical
  output and all its slots filled.
-/
import Transcode.Proofs.Run.Fresh

namespace Transcode

open Run

/-- **What can become of a ledger** over runs of one source. Each run may stop anywhere on its way,
its codec calls may fail, and artifacts may be deleted between runs. -/
inductive History (codec : Codec) (chunks : List RawChunk) : MemoryLedger → Prop
  | empty : History codec chunks .empty
  | run {ledger : MemoryLedger} (before : History codec chunks ledger) (source : String)
      (policy : Policy) {count : Nat} (positive : 0 < count) (concurrency : Nat)
      {trace : List (Exchange interface)} {flow : Flow interface (Except RunError Result)}
      {world : World MemoryLedger}
      (path : Flow.Path (serving (MayFail codec)) Eq
        (Run.plan ⟨source, chunks.take count, policy⟩).run (World.fresh concurrency ledger) trace
        flow world) :
      History codec chunks world.state
  | delete {ledger : MemoryLedger} (before : History codec chunks ledger) (key : Key) :
      History codec chunks (ledger.remove key)

namespace Blueprint

variable {codec : Codec} {chunks : List RawChunk} {rows : ChunkIndex → Row}

/-- A run over the first chunks of a source, whose codec calls may fail and which may be
interrupted. -/
def flaky (recurrence : Recurrence codec chunks rows) (source : String) (policy : Policy)
    (count : Nat) : Blueprint where
  run := ⟨source, chunks.take count, policy⟩
  codec := codec
  rows := rows
  recurrence := recurrence.take count
  setting := serving (MayFail codec)
  answers := MayFail codec
  serves := id
  unreliable := True
  excused _ := True
  grounds _ := trivial
  truthful := by
    rintro call answer (same | failed)
    · exact .inl same
    · exact .inr ⟨fun _ => trivial, failed⟩
  interruptible _ _ := trivial
  entitled _ := True

end Blueprint

variable {codec : Codec} {chunks : List RawChunk} {rows : ChunkIndex → Row}

/-- **Nothing but canonical artifacts** comes into a ledger. -/
theorem History.within (recurrence : Recurrence codec chunks rows) (nonempty : chunks ≠ [])
    {ledger : MemoryLedger} (history : History codec chunks ledger) :
    ledger.Within (canonical rows chunks.length) := by
  induction history with
  | empty => exact MemoryLedger.within_empty _
  | delete before key ih =>
    intro other artifact held
    rw [MemoryLedger.get?_remove] at held
    split at held
    · cases held
    · exact ih other artifact held
  | @run ledger before source policy count positive concurrency trace flow world path ih =>
    let blueprint := Blueprint.flaky recurrence source policy count
    obtain ⟨last, length⟩ : ∃ last, blueprint.run.count = last + 1 := by
      refine count_eq_succ fun empty => ?_
      rcases List.take_eq_nil_iff.mp empty with rfl | nothing
      · exact Nat.lt_irrefl 0 positive
      · exact nonempty nothing
    have standing : blueprint.Standing (fun _ => False) ledger :=
      Blueprint.standing_of_within (.inr ⟨fun _ => trivial, fun _ => trivial⟩)
        (fun call => Or.inl rfl) ih
    intro key artifact held
    rcases blueprint.sound length standing (fun fired => by cases fired) path key with
      same | ⟨mine, filled⟩
    · exact ih key artifact (same ▸ held)
    · have within : blueprint.run.count ≤ chunks.length := List.length_take_le' _ _
      rw [canonical_eq_of_mem (mem_runKeys_mono within mine), ← held]
      exact filled.held.symm

/-- **Recovery.** Where a fresh run succeeds, every ledger that runs, crashes and deletions can
leave is part of the canonical map, and a resumed run over any first chunks ends well from it under
every schedule: with the canonical output, and with all its slots filled as they should be. -/
theorem History.recovers {source : String} {policy : Policy}
    (succeeds : Succeeds ⟨source, chunks, policy⟩ codec) :
    ∃ rows, Recurrence codec chunks rows ∧
      ∀ {ledger : MemoryLedger}, History codec chunks ledger →
        ledger.Within (canonical rows chunks.length) ∧
        ∀ (source : String) {count : Nat} (concurrency : Nat), 0 < count →
          count ≤ chunks.length →
          Flow.EndsIn (· = inMemory codec)
            (fun result world =>
              (∃ value, result = .ok value ∧
                canonical rows chunks.length ⟨count - 1, .merged⟩ =
                  some (.bitstream value.output)) ∧
              ∀ key ∈ runKeys count, world.state.get? key = canonical rows chunks.length key)
            (Run.plan ⟨source, chunks.take count, .resume⟩).run
            (World.fresh concurrency ledger) := by
  obtain ⟨nonempty, rows, recurrence⟩ := succeeds_iff.mp succeeds
  refine ⟨rows, recurrence, fun {ledger} history => ⟨history.within recurrence nonempty, ?_⟩⟩
  intro source count concurrency positive inside
  let blueprint := Blueprint.reliable ⟨source, chunks.take count, .resume⟩ (recurrence.take count)
  obtain ⟨last, rfl⟩ := Nat.exists_eq_succ_of_ne_zero (Nat.ne_of_gt positive)
  have length : blueprint.run.count = last + 1 := List.length_take_of_le inside
  have standing : blueprint.Standing (fun _ => False) ledger :=
    Blueprint.standing_of_within (.inl rfl) (fun call => rfl) (history.within recurrence nonempty)
  refine (blueprint.endsIn length id ⟨_, rfl⟩ (Flow.free_fresh concurrency ledger) rfl
    standing).mono fun result world => ?_
  rintro ⟨value, rfl, output, filled, -⟩
  refine ⟨⟨value, rfl, ?_⟩, fun key mine => ?_⟩
  · have mine : (⟨last, .merged⟩ : Key) ∈ runKeys chunks.length :=
      mem_runKeys_iff.mpr ⟨inside, by simp⟩
    rw [Nat.succ_sub_one, canonical_eq_of_mem mine, output]
    rfl
  · rw [canonical_eq_of_mem (mem_runKeys_mono inside mine)]
    exact (filled key (length ▸ mine)).held

/-- A run over the first chunk alone, taken to its end, is part of a history. -/
theorem history_twoChunks : History Codec.verbatim twoChunks
    (((Run.plan ⟨"clip", twoChunks.take 1, .strict⟩).run.run (inMemory Codec.verbatim)
      (World.fresh 1 .empty)).2.state.remove ⟨0, .encodeV1State⟩) := by
  have serves : (serving (MayFail Codec.verbatim)).services (inMemory Codec.verbatim) :=
    serves_service fun _ => .inl rfl
  obtain ⟨trace, path⟩ := Flow.path_run serves
    (Run.plan ⟨"clip", twoChunks.take 1, .strict⟩).run (World.fresh 1 .empty)
    (Nat.add_pos_left (Flow.free_fresh 1 _) _)
  exact .delete (.run .empty "clip" .strict Nat.one_pos 1 path) _

/-- One chunk transcoded, one of its artifacts lost, and then both chunks resumed. -/
theorem History.recovers_twoChunks :
    Succeeds ⟨"clip", twoChunks, .resume⟩ Codec.verbatim ∧
      ∃ rows, Recurrence Codec.verbatim twoChunks rows ∧
        Flow.EndsIn (· = inMemory Codec.verbatim)
          (fun result world =>
            (∃ value, result = .ok value ∧
              canonical rows 2 ⟨1, .merged⟩ = some (.bitstream value.output)) ∧
            ∀ key ∈ runKeys 2, world.state.get? key = canonical rows 2 key)
          (Run.plan ⟨"clip", twoChunks, .resume⟩).run
          (World.fresh 4
            (((Run.plan ⟨"clip", twoChunks.take 1, .strict⟩).run.run (inMemory Codec.verbatim)
              (World.fresh 1 .empty)).2.state.remove ⟨0, .encodeV1State⟩)) := by
  have succeeds : Succeeds ⟨"clip", twoChunks, .resume⟩ Codec.verbatim :=
    succeeds_iff.mpr ⟨List.cons_ne_nil _ _, twoRows, recurrence_twoChunks⟩
  obtain ⟨rows, recurrence, recovers⟩ := History.recovers succeeds
  exact ⟨succeeds, rows, recurrence,
    (recovers history_twoChunks).2 "clip" 4 Nat.two_pos (Nat.le_refl 2)⟩

end Transcode
