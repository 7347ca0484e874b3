/-
**The chain stays whole**: the states and streams that a run with the simulated codec leaves behind
fit together.

* `Simulated.decodeAfter` decodes a stream from a stored state, and shows the hash of the state that
  the stream asks for; `decodeAfter_continuation` says so of a stream that continues a state.
* `Simulated.Continued` holds of three slots of a ledger whose stream leads from the one state to
  the other, over the frames of a chunk.
* `Run.endsIn_chained` — three ways to the state after a chunk agree byte for byte: what the encoder
  stored, what the chunk's own stream decodes to, and what the merged stream so far decodes to.
-/
import Transcode.Proofs.Run.Lossless

namespace Transcode

namespace Simulated

open DecoderState (fresh fits_fresh)

/-- Decodes a stream from a stored state: the hash of the state that the stream asks for, the
frames, and the state that they leave behind. -/
def decodeAfter (stream : Bitstream) (entry : StateHandle) :
    Except CodecError (Option UInt32 × List Bytes × StateHandle) := do
  let stream ← reading (Stream.parse stream.bytes)
  let state ← reading (DecoderState.parse entry)
  let (decoded, final) ← stream.decodeFrom state
  .ok (stream.entryHash, decoded, final.toHandle)

/-- **A stream that continues a state** asks for that state, and decodes to its frames from
there. -/
theorem decodeAfter_continuation (simulated : Simulated) {pixels : List Bytes}
    {state : DecoderState} (writable : Writable pixels) (fits : state.Fits)
    (room : state.HasRoom pixels.length) :
    decodeAfter (simulated.continuation pixels state).stream state.toHandle =
      .ok (some (minihash state.toHandle), pixels,
        (simulated.continuation pixels state).state) := by
  have read := parse_continued simulated writable state
  have decoded := decodeFrom_continued simulated room
  simp only [decodeAfter, continuation, read, DecoderState.parse_toHandle fits, reading_ok, decoded,
    bind, Except.bind]
  rfl

/-- **The stream in a slot leads from one state to another**: it asks for the first, and decodes
from there to the frames of the chunk and to the second. -/
def Continued (simulated : Simulated) (ledger : MemoryLedger) (raw : RawChunk)
    (entry stream final : Key) : Prop :=
  ∃ before bits after frames, ledger.get? entry = some (.state before) ∧
    ledger.get? stream = some (.bitstream bits) ∧ ledger.get? final = some (.state after) ∧
    simulated.frames raw = .ok frames ∧
    decodeAfter bits before = .ok (some (minihash before), frames, after)

namespace Suits

variable {simulated : Simulated} {chunks : List RawChunk} {raw : RawChunk} {ledger : MemoryLedger}

/-- The merged stream of a chunk decodes to the state that the chain has reached. -/
theorem decodeState_merged (suits : simulated.Suits chunks) (chunk : ChunkIndex) :
    decodeState (simulated.rows chunks chunk).merged =
      .ok (simulated.rows chunks chunk).rebased.state := by
  rw [merged_rows, rebasedState_rows, decodeState_opened (suits.writable_through chunk)]

/-- Slots that hold the continuation of a state fit together. -/
theorem continued_of_get? (suits : simulated.Suits chunks) {chunk : ChunkIndex}
    (found : chunks[chunk]? = some raw) {state : DecoderState} (fits : state.Fits)
    (room : state.HasRoom (simulated.framesAt chunks chunk).length)
    {entry stream final : Key} (before : ledger.get? entry = some (.state state.toHandle))
    (held : ledger.get? stream = some (.bitstream
      (simulated.continuation (simulated.framesAt chunks chunk) state).stream))
    (after : ledger.get? final = some (.state
      (simulated.continuation (simulated.framesAt chunks chunk) state).state)) :
    simulated.Continued ledger raw entry stream final := by
  have mine : simulated.framesAt chunks chunk = simulated.pixels raw := by
    simp [framesAt, found]
  have present := suits.present raw (List.mem_of_getElem? found)
  refine ⟨_, _, _, _, before, held, after, frames_eq present, ?_⟩
  rw [← mine]
  exact decodeAfter_continuation simulated (suits.writable_at chunk) fits room

/-- **Canonical artifacts fit together**, at the chunk after another. -/
theorem continued_canonical (suits : simulated.Suits chunks) {previous : ChunkIndex}
    (found : chunks[previous + 1]? = some raw)
    (same : ∀ key, ledger.get? key = canonical (simulated.rows chunks) chunks.length key) :
    simulated.Continued ledger raw ⟨previous, .rebasedState⟩ ⟨previous + 1, .rebased⟩
        ⟨previous + 1, .rebasedState⟩ ∧
      simulated.Continued ledger raw ⟨previous, .encodeV0State⟩ ⟨previous + 1, .encodeV1⟩
        ⟨previous + 1, .encodeV1State⟩ := by
  have inside : previous + 1 < chunks.length := (List.getElem?_eq_some_iff.mp found).1
  have held {chunk : ChunkIndex} {kind : Kind} (below : chunk ≤ previous + 1) :
      ledger.get? ⟨chunk, kind⟩ = (simulated.rows chunks chunk).artifact? ⟨chunk, kind⟩ :=
    (same _).trans (if_pos (Nat.lt_of_le_of_lt below inside))
  have earlier := Nat.le_succ previous
  have few := (suits.writable_at (previous + 1)).few
  constructor
  · refine suits.continued_of_get? found
      ((suits.writable_through previous).fits_after fits_fresh)
      (DecoderState.hasRoom_after_fresh (suits.writable_through previous).few few) ?_
      (held (Nat.le_refl _)) (held (Nat.le_refl _))
    rw [← rebasedState_rows]
    exact held earlier
  · refine suits.continued_of_get? found (suits.fits_lineage previous)
      (suits.hasRoom_lineage previous few) ?_ (held (Nat.le_refl _)) (held (Nat.le_refl _))
    rw [← v0State_rows]
    exact held earlier

end Suits

end Simulated

namespace Run

open Simulated

/-- **The chain is whole after every run** with the simulated codec, under every policy and every
schedule: each merged stream decodes to the state that its chunk was rebased to; and each later
chunk's rebased stream, and its stream in the second lineage, lead over the chunk's frames from the
state they continue to the state that was stored with them. -/
theorem endsIn_chained {run : Run} {simulated : Simulated} (chunks : run.chunks ≠ [])
    (suits : simulated.Suits run.chunks) (concurrency : Nat) :
    Flow.EndsIn (· = inMemory simulated.codec)
      (fun result world => (∃ value, result = .ok value) ∧
        ∀ chunk raw, run.chunks[chunk]? = some raw →
          (∃ merged state, world.state.get? ⟨chunk, .merged⟩ = some (.bitstream merged) ∧
            world.state.get? ⟨chunk, .rebasedState⟩ = some (.state state) ∧
            decodeState merged = .ok state) ∧
          ∀ previous, chunk = previous + 1 →
            simulated.Continued world.state raw ⟨previous, .rebasedState⟩ ⟨chunk, .rebased⟩
                ⟨chunk, .rebasedState⟩ ∧
              simulated.Continued world.state raw ⟨previous, .encodeV0State⟩ ⟨chunk, .encodeV1⟩
                ⟨chunk, .encodeV1State⟩)
      run.plan.run (World.fresh concurrency .empty) := by
  obtain ⟨last, count⟩ := count_eq_succ chunks
  refine (endsIn_fresh count suits.recurrence concurrency).mono fun result world => ?_
  rintro ⟨value, rfl, -, same⟩
  refine ⟨⟨value, rfl⟩, fun chunk raw found => ⟨?_, ?_⟩⟩
  · have inside : chunk < run.chunks.length := (List.getElem?_eq_some_iff.mp found).1
    have held (kind : Kind) : world.state.get? ⟨chunk, kind⟩ =
        (simulated.rows run.chunks chunk).artifact? ⟨chunk, kind⟩ :=
      (same _).trans (if_pos inside)
    exact ⟨_, _, held .merged, held .rebasedState, suits.decodeState_merged chunk⟩
  · rintro previous rfl
    exact suits.continued_canonical found same

/-- Three chunks of frames of two octets. The first ends in a short frame, to which the next frame
is longer. -/
def unevenChunks : List RawChunk :=
  [⟨0, "00.y4m", [1, 2, 3]⟩, ⟨1, "01.y4m", [4, 5]⟩, ⟨2, "02.y4m", [6]⟩]

/-- A run over the three chunks, and four workers. -/
theorem endsIn_chained_unevenChunks :
    unevenChunks ≠ [] ∧ (ofFrameSize 2).Suits unevenChunks ∧
      Flow.EndsIn (· = inMemory (ofFrameSize 2).codec)
        (fun _ world => ∃ merged state,
          world.state.get? ⟨2, .merged⟩ = some (.bitstream merged) ∧
          world.state.get? ⟨2, .rebasedState⟩ = some (.state state) ∧
          decodeState merged = .ok state ∧
          (ofFrameSize 2).Continued world.state ⟨1, "01.y4m", [4, 5]⟩ ⟨0, .rebasedState⟩
            ⟨1, .rebased⟩ ⟨1, .rebasedState⟩)
        (Run.plan ⟨"clip", unevenChunks, .strict⟩).run (World.fresh 4 .empty) := by
  have nonempty : unevenChunks ≠ [] := List.cons_ne_nil _ _
  have suits : (ofFrameSize 2).Suits unevenChunks := {
    small := by decide
    present := by decide
    few := by simp [unevenChunks, pixels, ofFrameSize, Bytes.pieces, UInt32.size] }
  refine ⟨nonempty, suits, ?_⟩
  refine (@endsIn_chained ⟨"clip", unevenChunks, .strict⟩ _ nonempty suits 4).mono ?_
  rintro result world ⟨-, whole⟩
  obtain ⟨⟨merged, state, held, kept, decoded⟩, -⟩ := whole 2 _ rfl
  exact ⟨merged, state, held, kept, decoded, ((whole 1 _ rfl).2 0 rfl).1⟩

end Run

end Transcode
