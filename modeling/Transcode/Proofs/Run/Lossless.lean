/-
**A run with the simulated codec loses nothing**, and its output is that of a sequential encoder.

* `Simulated.rows` gives the artifacts by the frames they stand for: chunk after chunk the rebased
  state is the state after all frames so far (`rebasedState_rows`), and the merged stream opens with
  all frames so far (`merged_rows`).
* `Simulated.Suits.recurrence` — the codec carries the recurrence out with these rows, whatever the
  sizes of the chunks.
* `Run.endsIn_lossless` — hence the output decodes to the source, and when only the last chunk may
  end in a short frame, it is the encoding of the source in one go.
-/
import Mathlib.Data.List.Flatten
import Transcode.Proofs.Codec.Merging
import Transcode.Proofs.Run.Refinement

namespace Transcode

namespace Simulated

open DecoderState (fresh fits_fresh)

/-! ### Frames of a source -/

section Frames

variable (simulated : Simulated) (chunks : List RawChunk)

/-- The frames of the chunk at a position. -/
def framesAt (chunk : ChunkIndex) : List Bytes :=
  chunks[chunk]?.toList.flatMap simulated.pixels

/-- The frames of the chunks up to a position. -/
def framesThrough (chunk : ChunkIndex) : List Bytes :=
  (chunks.take (chunk + 1)).flatMap simulated.pixels

theorem framesThrough_zero : simulated.framesThrough chunks 0 = simulated.framesAt chunks 0 := by
  rw [framesThrough, framesAt, List.take_add_one, List.take_zero, List.nil_append]

theorem framesThrough_succ (previous : ChunkIndex) :
    simulated.framesThrough chunks (previous + 1) =
      simulated.framesThrough chunks previous ++ simulated.framesAt chunks (previous + 1) := by
  rw [framesThrough, List.take_add_one, List.flatMap_append, ← framesThrough, ← framesAt]

theorem framesThrough_last {last : Nat} (count : chunks.length = last + 1) :
    simulated.framesThrough chunks last = chunks.flatMap simulated.pixels := by
  rw [framesThrough, ← count, List.take_length]

theorem flatten_flatMap_pixels :
    (chunks.flatMap simulated.pixels).flatten = chunks.flatMap RawChunk.data := by
  induction chunks with
  | nil => rfl
  | cons raw rest ih =>
    rw [List.flatMap_cons, List.flatMap_cons, List.flatten_append, flatten_pixels, ih]

/-- **Chunks that end with a frame** have the frames of one single chunk. -/
theorem pixels_flatMap {chunks : List RawChunk}
    (whole : ∀ raw ∈ chunks.dropLast, simulated.frameSize ∣ raw.data.length)
    (index : ChunkIndex) (path : String) :
    simulated.pixels ⟨index, path, chunks.flatMap RawChunk.data⟩ =
      chunks.flatMap simulated.pixels := by
  have aligned : ∀ part ∈ (chunks.map RawChunk.data).dropLast,
      simulated.frameSize - 1 + 1 ∣ part.length := by
    intro part member
    rw [← List.map_dropLast] at member
    obtain ⟨raw, inside, rfl⟩ := List.mem_map.mp member
    rw [Nat.sub_add_cancel simulated.frameSize_pos]
    exact whole raw inside
  rw [pixels, List.flatMap_def, Bytes.pieces_flatten aligned, List.flatMap_map]
  rfl

end Frames

/-! ### Artifacts -/

section Rows

variable (simulated : Simulated) (chunks : List RawChunk)

/-- The state of the first lineage after a chunk. -/
def lineage : ChunkIndex → DecoderState
  | 0 => fresh.after (simulated.framesAt chunks 0)
  | previous + 1 => (fresh.after (simulated.framesAt chunks previous)).after
      (simulated.framesAt chunks (previous + 1))

/-- The row of a first chunk with the given frames. -/
def firstRow (frames : List Bytes) : Row :=
  let own : Encoded := ⟨(simulated.opened frames).toBitstream, (fresh.after frames).toHandle⟩
  ⟨own.stream, own.state, own, own, own, own.stream⟩

/-- **The rows of the source**: each continuation starts from the state that its lineage has
reached. -/
def rows : ChunkIndex → Row
  | 0 => simulated.firstRow (simulated.framesAt chunks 0)
  | previous + 1 =>
    let frames := simulated.framesAt chunks (previous + 1)
    let before := simulated.framesThrough chunks previous
    { baseline := (simulated.opened frames).toBitstream
      decoded := (fresh.after frames).toHandle
      v0 := simulated.continuation frames (fresh.after (simulated.framesAt chunks previous))
      v1 := simulated.continuation frames (simulated.lineage chunks previous)
      rebased := simulated.continuation frames (fresh.after before)
      merged := (simulated.opened (before ++ frames)).toBitstream }

theorem decoded_rows (chunk : ChunkIndex) :
    (simulated.rows chunks chunk).decoded =
      (fresh.after (simulated.framesAt chunks chunk)).toHandle := by
  cases chunk <;> rfl

theorem v0State_rows (chunk : ChunkIndex) :
    (simulated.rows chunks chunk).v0.state = (simulated.lineage chunks chunk).toHandle := by
  cases chunk <;> rfl

theorem rebasedState_rows (chunk : ChunkIndex) :
    (simulated.rows chunks chunk).rebased.state =
      (fresh.after (simulated.framesThrough chunks chunk)).toHandle := by
  cases chunk with
  | zero =>
    rw [framesThrough_zero]
    rfl
  | succ previous =>
    rw [framesThrough_succ, DecoderState.after_append]
    rfl

theorem merged_rows (chunk : ChunkIndex) :
    (simulated.rows chunks chunk).merged =
      (simulated.opened (simulated.framesThrough chunks chunk)).toBitstream := by
  cases chunk with
  | zero =>
    rw [framesThrough_zero]
    rfl
  | succ previous =>
    rw [framesThrough_succ]
    rfl

end Rows

/-! ### The recurrence -/

/-- Chunks that the codec can handle: none is empty, and the frames are small and few enough for
their numbers to be written down. -/
structure Suits (simulated : Simulated) (chunks : List RawChunk) : Prop where
  small : simulated.frameSize < UInt32.size
  present : ∀ raw ∈ chunks, raw.data ≠ []
  few : (chunks.flatMap simulated.pixels).length < UInt32.size

namespace Suits

variable {simulated : Simulated} {chunks : List RawChunk} {raw : RawChunk}

theorem writable (suits : simulated.Suits chunks) :
    Writable (chunks.flatMap simulated.pixels) where
  few := suits.few
  short frame member := by
    obtain ⟨raw, _, inside⟩ := List.mem_flatMap.mp member
    exact length_lt_of_mem_pixels suits.small inside

theorem writable_through (suits : simulated.Suits chunks) (chunk : ChunkIndex) :
    Writable (simulated.framesThrough chunks chunk) :=
  suits.writable.sublist ((List.take_sublist _ chunks).flatMap _)

theorem writable_at (suits : simulated.Suits chunks) (chunk : ChunkIndex) :
    Writable (simulated.framesAt chunks chunk) := by
  refine suits.writable.sublist (List.Sublist.flatMap ?_ _)
  cases found : chunks[chunk]? with
  | none => exact List.nil_sublist chunks
  | some raw => exact List.singleton_sublist.mpr (List.mem_of_getElem? found)

theorem fits_lineage (suits : simulated.Suits chunks) (chunk : ChunkIndex) :
    (simulated.lineage chunks chunk).Fits := by
  cases chunk with
  | zero => exact (suits.writable_at 0).fits_after fits_fresh
  | succ previous =>
    have before := (suits.writable_at previous).fits_after fits_fresh
    exact (suits.writable_at (previous + 1)).fits_after before

/-- The frames of a few chunks leave room for those of one more. -/
theorem hasRoom_lineage (suits : simulated.Suits chunks) (chunk : ChunkIndex) {frames : Nat}
    (few : frames < UInt32.size) : (simulated.lineage chunks chunk).HasRoom frames := by
  cases chunk with
  | zero => exact DecoderState.hasRoom_after_fresh (suits.writable_at 0).few few
  | succ previous =>
    have start : fresh.framesDecoded.toNat = 0 := rfl
    have wide : UInt32.size + (UInt32.size + UInt32.size) ≤ UInt64.size := by decide
    have before := (suits.writable_at previous).few
    have here := (suits.writable_at (previous + 1)).few
    exact DecoderState.HasRoom.after (DecoderState.HasRoom.after (by omega))

/-- The chunk's own encoding, and the state it leaves behind. -/
theorem baseline (suits : simulated.Suits chunks) {chunk : ChunkIndex}
    (found : chunks[chunk]? = some raw) :
    simulated.encode raw =
      .ok (simulated.opened (simulated.framesAt chunks chunk)).toBitstream := by
  rw [encode_eq (suits.present raw (List.mem_of_getElem? found)), framesAt, found]
  simp

theorem framesThrough_ne_nil (suits : simulated.Suits chunks) (nonempty : chunks ≠ [])
    (chunk : ChunkIndex) : simulated.framesThrough chunks chunk ≠ [] := by
  cases chunks with
  | nil => exact absurd rfl nonempty
  | cons first rest =>
    have cut : simulated.pixels first ≠ [] :=
      mt Bytes.pieces_eq_nil_iff.mp (suits.present first List.mem_cons_self)
    rw [framesThrough, List.take_succ_cons, List.flatMap_cons]
    exact List.append_ne_nil_of_left_ne_nil cut _

/-- **The recurrence is carried out**, whatever the sizes of the chunks. -/
theorem recurrence (suits : simulated.Suits chunks) :
    Recurrence simulated.codec chunks (simulated.rows chunks) where
  opens raw found := {
    baseline := suits.baseline found
    decoded := decodeState_opened (suits.writable_at 0)
    v0 := rfl
    v1 := rfl
    rebasedState := rfl
    merged := rfl }
  continues previous raw found := by
    have mine : simulated.framesAt chunks (previous + 1) = simulated.pixels raw := by
      simp [framesAt, found]
    have present := suits.present raw (List.mem_of_getElem? found)
    have few : (simulated.pixels raw).length < UInt32.size := mine ▸ (suits.writable_at _).few
    have alone := (suits.writable_at previous).fits_after fits_fresh
    have together := (suits.writable_through previous).fits_after fits_fresh
    have lineage := suits.fits_lineage previous
    constructor
    case baseline => exact suits.baseline found
    case decoded => exact decodeState_opened (suits.writable_at _)
    case v0 =>
      rw [decoded_rows, rows, mine]
      exact encodeGivenState_opened suits.small present few alone
        (DecoderState.hasRoom_after_fresh (suits.writable_at previous).few few)
    case v1 =>
      rw [v0State_rows, rows, mine]
      exact encodeGivenState_opened suits.small present few lineage
        (suits.hasRoom_lineage previous few)
    case rebased =>
      rw [rebasedState_rows, v0State_rows, rows, mine]
      exact rebase_continued suits.small present few lineage
        (suits.hasRoom_lineage previous few) together
        (DecoderState.hasRoom_after_fresh (suits.writable_through previous).few few)
    case merged =>
      have nonempty : chunks ≠ [] := List.ne_nil_of_mem (List.mem_of_getElem? found)
      have joined := suits.writable_through (previous + 1)
      rw [framesThrough_succ] at joined
      rw [merged_rows]
      exact merge_continued (suits.framesThrough_ne_nil nonempty previous) joined

end Suits

end Simulated

namespace Run

open Simulated

/-- **A run with the simulated codec is lossless**: under every policy and every schedule it ends
well, its output decodes to the chunks in a row, and when all chunks but the last end with a whole
frame, the output is the encoding of one single chunk. -/
theorem endsIn_lossless {run : Run} {simulated : Simulated} (chunks : run.chunks ≠ [])
    (suits : simulated.Suits run.chunks) (concurrency : Nat) :
    Flow.EndsIn (· = inMemory simulated.codec)
      (fun result _ => ∃ value, result = .ok value ∧
        decode value.output = .ok (run.chunks.flatMap RawChunk.data) ∧
        ((∀ raw ∈ run.chunks.dropLast, simulated.frameSize ∣ raw.data.length) →
          ∀ index path, simulated.encode ⟨index, path, run.chunks.flatMap RawChunk.data⟩ =
            .ok value.output))
      run.plan.run (World.fresh concurrency .empty) := by
  obtain ⟨last, count⟩ := count_eq_succ chunks
  refine (endsIn_fresh count suits.recurrence concurrency).mono fun result world => ?_
  rintro ⟨value, rfl, output, -⟩
  have opens : value.output =
      (simulated.opened (run.chunks.flatMap simulated.pixels)).toBitstream := by
    rw [output, merged_rows, framesThrough_last simulated run.chunks count]
  refine ⟨value, rfl, ?_, fun whole index path => ?_⟩
  · rw [opens, decode_opened suits.writable, flatten_flatMap_pixels]
  · have present : run.chunks.flatMap RawChunk.data ≠ [] := by
      obtain ⟨raw, member⟩ := List.exists_mem_of_ne_nil _ chunks
      exact fun empty => suits.present raw member (List.flatMap_eq_nil_iff.mp empty raw member)
    rw [encode_eq present, simulated.pixels_flatMap whole, opens]

/-- Three chunks of two, one and half a frame of two octets. -/
def threeChunks : List RawChunk :=
  [⟨0, "00.y4m", [1, 2, 3, 4]⟩, ⟨1, "01.y4m", [5, 6]⟩, ⟨2, "02.y4m", [7]⟩]

/-- A run over the three chunks that refuses to overwrite, and four workers. -/
theorem endsIn_lossless_threeChunks :
    threeChunks ≠ [] ∧ (ofFrameSize 2).Suits threeChunks ∧
      Flow.EndsIn (· = inMemory (ofFrameSize 2).codec)
        (fun result _ => ∃ value, result = .ok value ∧
          decode value.output = .ok [1, 2, 3, 4, 5, 6, 7] ∧
          (ofFrameSize 2).encode ⟨0, "whole.y4m", [1, 2, 3, 4, 5, 6, 7]⟩ = .ok value.output)
        (Run.plan ⟨"clip", threeChunks, .strict⟩).run (World.fresh 4 .empty) := by
  have nonempty : threeChunks ≠ [] := List.cons_ne_nil _ _
  have suits : (ofFrameSize 2).Suits threeChunks := {
    small := by decide
    present := by decide
    few := by simp [threeChunks, pixels, ofFrameSize, Bytes.pieces, UInt32.size] }
  refine ⟨nonempty, suits, ?_⟩
  refine (@endsIn_lossless ⟨"clip", threeChunks, .strict⟩ _ nonempty suits 4).mono ?_
  rintro result world ⟨value, rfl, decoded, whole⟩
  exact ⟨value, rfl, decoded, whole (by decide) 0 "whole.y4m"⟩

end Run

end Transcode
