/-
**Decoding** a stream, whoever made it.

* Decoded frames are as long as the stored ones (`Stream.map_length_of_decodeFrom`), and the decoder
  has counted them (`Stream.toNat_framesDecoded_of_decodeFrom`), so that it is no longer fresh
  (`Stream.framesDecoded_ne_zero`).
* `Simulated.decode_eq_ok` and `Simulated.decodeState_eq_ok` — the two operations that decode, on
  bytes.
-/
import Transcode.Proofs.Codec.Continuation

namespace Transcode

open DecoderState (fresh)

namespace Stream

variable {stream : Stream} {state final : DecoderState} {decoded : List Bytes}

/-! ### Streams -/

/-- Every stream decodes from a state with room for its frames that has seen a frame. -/
theorem exists_decodeFrom (started : state.framesDecoded ≠ 0)
    (room : state.HasRoom stream.frames.length) :
    ∃ decoded final, stream.decodeFrom state = .ok (decoded, final) :=
  ⟨_, _, decodeFrom_eq_ok.mpr ⟨fun _ => started, room, rfl, rfl⟩⟩

theorem map_length_of_decodeFrom (decodes : stream.decodeFrom state = .ok (decoded, final)) :
    decoded.map List.length = stream.frames.map (·.payload.length) := by
  obtain ⟨-, -, rfl, -⟩ := decodeFrom_eq_ok.mp decodes
  exact map_length_decodeFrames stream.frames state.lastFrame

theorem length_of_decodeFrom (decodes : stream.decodeFrom state = .ok (decoded, final)) :
    decoded.length = stream.frames.length :=
  (length_eq_of_lengths (map_length_of_decodeFrom decodes).symm).symm

theorem eq_after_of_decodeFrom (decodes : stream.decodeFrom state = .ok (decoded, final)) :
    final = state.after decoded :=
  (decodeFrom_eq_ok.mp decodes).2.2.2

/-- The decoder has counted the frames. -/
theorem toNat_framesDecoded_of_decodeFrom
    (decodes : stream.decodeFrom state = .ok (decoded, final)) :
    final.framesDecoded.toNat = state.framesDecoded.toNat + stream.frames.length := by
  have count := length_of_decodeFrom decodes
  obtain ⟨-, room, -, rfl⟩ := decodeFrom_eq_ok.mp decodes
  rw [← count] at room ⊢
  exact DecoderState.toNat_framesDecoded_after room

/-- The frames of a stream that can be written down can be written down decoded. -/
theorem Fits.writable (fits : stream.Fits)
    (decodes : stream.decodeFrom state = .ok (decoded, final)) : Simulated.Writable decoded where
  few := length_of_decodeFrom decodes ▸ fits.frames
  short frame member := by
    have listed : frame.length ∈ stream.frames.map (·.payload.length) :=
      map_length_of_decodeFrom decodes ▸ List.mem_map_of_mem member
    obtain ⟨stored, inside, length⟩ := List.mem_map.mp listed
    exact length ▸ fits.payloads stored inside

/-- What a stream leaves behind has room for as many frames as can be counted with its own. -/
theorem hasRoom_of_decodeFrom (decodes : stream.decodeFrom fresh = .ok (decoded, final))
    {frames : Nat} (few : stream.frames.length + frames < UInt32.size) : final.HasRoom frames := by
  have counted := toNat_framesDecoded_of_decodeFrom decodes
  have room := DecoderState.hasRoom_fresh few
  omega

/-- A decoder that has seen a frame is no longer fresh. -/
theorem framesDecoded_ne_zero (nonempty : stream.frames ≠ [])
    (decodes : stream.decodeFrom fresh = .ok (decoded, final)) : final.framesDecoded ≠ 0 := by
  have counted := toNat_framesDecoded_of_decodeFrom decodes
  have some := List.length_pos_of_ne_nil nonempty
  intro zero
  rw [zero] at counted
  exact absurd counted (by simp only [UInt64.toNat_zero]; omega)

end Stream

namespace Simulated

variable {bits : Bitstream} {stream : Stream} {dependent : StateMismatch} {media : RawMedia}
  {handle : StateHandle}

/-! ### Operations -/

theorem decodeFresh_of_parse (read : Stream.parse bits.bytes = .ok stream)
    (starts : stream.entryHash = none) (dependent : StateMismatch) :
    decodeFresh bits dependent = stream.decodeFrom fresh := by
  rw [decodeFresh, read]
  exact if_neg (by simp only [starts, Option.isSome_none, Bool.false_eq_true, not_false_eq_true])

theorem decodeFresh_eq_ok {result : List Bytes × DecoderState} :
    decodeFresh bits dependent = .ok result ↔
      ∃ stream, Stream.parse bits.bytes = .ok stream ∧ stream.entryHash = none ∧
        stream.decodeFrom fresh = .ok result := by
  constructor
  · intro decodes
    obtain ⟨stream, read, decodes⟩ := bind_eq_ok.mp decodes
    split at decodes
    · cases decodes
    · next starts =>
      exact ⟨stream, reading_eq_ok.mp read, Option.not_isSome_iff_eq_none.mp starts, decodes⟩
  · rintro ⟨stream, read, starts, decodes⟩
    rw [decodeFresh_of_parse read starts, decodes]

/-- What is decoded and then put to use. -/
theorem decodeFresh_bind_eq_ok {α : Type} {use : List Bytes × DecoderState → Except CodecError α}
    {value : α} :
    (decodeFresh bits dependent >>= use) = .ok value ↔
      ∃ stream decoded final, Stream.parse bits.bytes = .ok stream ∧ stream.entryHash = none ∧
        stream.decodeFrom fresh = .ok (decoded, final) ∧ use (decoded, final) = .ok value := by
  rw [bind_eq_ok]
  constructor
  · rintro ⟨⟨decoded, final⟩, decodes, used⟩
    obtain ⟨stream, read, starts, yields⟩ := decodeFresh_eq_ok.mp decodes
    exact ⟨stream, decoded, final, read, starts, yields, used⟩
  · rintro ⟨stream, decoded, final, read, starts, yields, used⟩
    exact ⟨_, decodeFresh_eq_ok.mpr ⟨stream, read, starts, yields⟩, used⟩

/-- **What can be decoded** to media. -/
theorem decode_eq_ok :
    decode bits = .ok media ↔
      ∃ stream decoded final, Stream.parse bits.bytes = .ok stream ∧ stream.entryHash = none ∧
        stream.decodeFrom fresh = .ok (decoded, final) ∧ decoded.flatten = media := by
  simp only [decode, decodeFresh_bind_eq_ok, Except.ok.injEq]

/-- **What leaves a state behind.** -/
theorem decodeState_eq_ok :
    decodeState bits = .ok handle ↔
      ∃ stream decoded final, Stream.parse bits.bytes = .ok stream ∧ stream.entryHash = none ∧
        stream.decodeFrom fresh = .ok (decoded, final) ∧ final.toHandle = handle := by
  simp only [decodeState, decodeFresh_bind_eq_ok, Except.ok.injEq]

end Simulated

end Transcode
